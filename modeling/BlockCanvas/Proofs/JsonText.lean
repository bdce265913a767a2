import BlockCanvas.Library
import BlockCanvas.Proofs.JsonReading

/-!
JSON text is read back. Of the indented text of a value the reader makes the value again, with each double as
its text is read, and refuses it if and only if more containers are open at once than it allows
(`Json.parse?_pretty`).
-/
namespace BlockCanvas.Json

/-! ### Strings -/

theorem hexValue?_hexDigit :
    ∀ n < 32, hexValue? (hexDigit (n / 16)) = some (n / 16) ∧ hexValue? (hexDigit n) = some (n % 16) := by
  decide

theorem readEscape_control {c : Char} (h : c.toNat < 0x20) (rest : List Char) :
    readEscape ('0' :: '0' :: hexDigit (c.toNat / 16) :: hexDigit c.toNat :: rest) = some (c, rest) := by
  obtain ⟨hhigh, hlow⟩ := hexValue?_hexDigit c.toNat h
  have hzero : hexValue? '0' = some 0 := rfl
  have hunit : readUnit ('0' :: '0' :: hexDigit (c.toNat / 16) :: hexDigit c.toNat :: rest) = some (c.toNat, rest) := by
    have hvalue : ((0 * 16 + 0) * 16 + c.toNat / 16) * 16 + c.toNat % 16 = c.toNat := by omega
    simp only [readUnit, hzero, hhigh, hlow, bind, Option.bind, hvalue]
  have hsurrogate : ¬0xD800 ≤ c.toNat := by omega
  have hsurrogate' : ¬0xDC00 ≤ c.toNat := by omega
  simp [readEscape, hunit, hsurrogate, hsurrogate', Char.ofNat_toNat]

theorem readChars_escapeChar (n : ℕ) (seen : List Char) (c : Char) (rest : List Char) :
    readChars (n + 1) seen (escapeChar c ++ rest) = readChars n (c :: seen) rest := by
  rw [escapeChar]
  split_ifs with hquote hback hb ht hn hf hr hcontrol
  · rw [eq_of_beq hquote]; rfl
  · rw [eq_of_beq hback]; rfl
  · rw [eq_of_beq hb]; rfl
  · rw [eq_of_beq ht]; rfl
  · rw [eq_of_beq hn]; rfl
  · rw [eq_of_beq hf]; rfl
  · rw [eq_of_beq hr]; rfl
  · simp only [List.cons_append, List.nil_append, readChars, readEscape_control hcontrol]
  · have hquote' : c ≠ '"' := by simpa using hquote
    have hback' : c ≠ '\\' := by simpa using hback
    rw [List.singleton_append, readChars]
    · rw [if_neg hcontrol]
    all_goals simp [hquote', hback']

theorem readChars_flatMap (cs seen rest : List Char) {n : ℕ} (hn : cs.length < n) :
    readChars n seen (cs.flatMap escapeChar ++ '"' :: rest) = some (seen.reverse ++ cs, rest) := by
  induction cs generalizing n seen with
  | nil =>
    obtain ⟨n, rfl⟩ := Nat.exists_eq_succ_of_ne_zero hn.ne'
    simp [readChars]
  | cons c cs ih =>
    obtain ⟨n, rfl⟩ := Nat.exists_eq_succ_of_ne_zero (Nat.ne_zero_of_lt hn)
    rw [List.flatMap_cons, List.append_assoc, readChars_escapeChar, ih _ (by simpa using hn)]
    simp

theorem length_le_flatMap (cs : List Char) : cs.length ≤ (cs.flatMap escapeChar).length := by
  induction cs with
  | nil => rfl
  | cons c cs ih =>
    have hpos : 0 < (escapeChar c).length := by
      rw [escapeChar]
      split_ifs <;> exact Nat.succ_pos _
    rw [List.flatMap_cons, List.length_append, List.length_cons]
    omega

theorem toList_quoted (s : String) : (quoted s).toList = '"' :: (s.toList.flatMap escapeChar ++ ['"']) := by
  rw [quoted, String.toList_ofList, List.cons_append]

theorem readString_quoted (s : String) (rest : List Char) :
    readString (s.toList.flatMap escapeChar ++ '"' :: rest) = some (s, rest) := by
  have hle := length_le_flatMap s.toList
  rw [readString, readChars_flatMap _ _ _ (by rw [List.length_append]; omega), Option.map_some, List.reverse_nil,
    List.nil_append, String.ofList_toList]

/-! ### Scalars -/

def Starts (text : List Char) : Prop :=
  ∃ c cs, text = c :: cs ∧ Text.isSpacing c = false ∧ c ≠ ']'

theorem Starts.append {text : List Char} (h : Starts text) (rest : List Char) : Starts (text ++ rest) := by
  obtain ⟨c, cs, rfl, hc⟩ := h
  exact ⟨c, cs ++ rest, rfl, hc⟩

theorem Starts.skipSpacing {text : List Char} (h : Starts text) : skipSpacing text = text := by
  obtain ⟨c, cs, rfl, hc, -⟩ := h
  exact List.dropWhile_cons_of_neg (by simp [hc])

theorem readScalar_quoted (s : String) (rest : List Char) :
    readScalar ((quoted s).toList ++ rest) = some (.string s, rest) := by
  have hread := readString_quoted s rest
  rw [toList_quoted, List.cons_append, List.append_assoc, List.singleton_append, readScalar, hread]
  rfl

def BeginsScalar (c : Char) : Prop :=
  Decimal.asciiDigit c = true ∨ c ∈ ['-', '"', 'n', 't', 'f']

instance (c : Char) : Decidable (BeginsScalar c) :=
  inferInstanceAs (Decidable (_ ∨ _))

theorem BeginsScalar.ne {c d : Char} (h : BeginsScalar c) (hd : d ∈ [' ', '\t', '\n', '\r', '[', ']', '\x7b']) :
    c ≠ d := by
  rintro rfl
  have hnone : [' ', '\t', '\n', '\r', '[', ']', '\x7b'].all (fun d => decide (¬BeginsScalar d)) = true := by
    decide
  exact of_decide_eq_true (List.all_eq_true.1 hnone c hd) h

theorem BeginsScalar.not_isSpacing {c : Char} (h : BeginsScalar c) : Text.isSpacing c = false := by
  simp [Text.isSpacing, h.ne]

theorem exists_head_number {negative : Bool} {n : Decimal.Numeral} (h : n.Proper) :
    ∃ c cs, Binary.sign negative ++ n.text = c :: cs ∧ BeginsScalar c := by
  obtain ⟨c, cs, hcons⟩ := List.exists_cons_of_ne_nil h.whole
  have hc := h.digits c (hcons ▸ List.mem_append_left _ List.mem_cons_self)
  cases negative with
  | true => exact ⟨'-', n.text, rfl, Or.inr (by decide)⟩
  | false => exact ⟨c, cs ++ n.tail, by rw [Decimal.Numeral.text, hcons]; rfl, Or.inl hc⟩

variable {v : Json}

theorem Legible.exists_head_scalar (h : v.Legible) (hitems : v.items? = none) (hmembers : v.members? = none) :
    ∃ c cs, (scalar v).toList = c :: cs ∧ BeginsScalar c := by
  cases h with
  | null => exact ⟨'n', _, rfl, by decide⟩
  | bool b => cases b <;> exact ⟨_, _, rfl, by decide⟩
  | int _ _ =>
    rw [toList_int]
    exact exists_head_number (proper_wholeNumeral _)
  | real hx =>
    obtain ⟨negative, m, q, hx, -⟩ := Binary.exists_finite hx
    rw [toList_real hx]
    exact exists_head_number (Decimal.proper_numeral Binary.exponent_decimal)
  | string s => exact ⟨'"', _, toList_quoted s, by decide⟩
  | array _ => cases hitems
  | object _ _ => cases hmembers

theorem Legible.readScalar (h : v.Legible) (hitems : v.items? = none) (hmembers : v.members? = none)
    {rest : List Char} (hrest : Stops rest) :
    Json.readScalar ((scalar v).toList ++ rest) = some (v.reread returned, rest) := by
  cases h with
  | null => rfl
  | bool b => cases b <;> rfl
  | int hlow hhigh => exact readScalar_int hlow hhigh hrest
  | real hx => exact readScalar_real hx hrest
  | string s => exact readScalar_quoted s rest
  | array _ => cases hitems
  | object _ _ => cases hmembers

/-! ### Containers -/

theorem toList_newline (level : ℕ) : (newline level).toList = '\n' :: List.replicate (2 * level) ' ' :=
  String.toList_ofList

theorem skipSpacing_newline (level : ℕ) (text : List Char) :
    skipSpacing ((newline level).toList ++ text) = skipSpacing text := by
  refine List.dropWhile_append_of_pos fun c hc => ?_
  rw [toList_newline] at hc
  rcases List.mem_cons.1 hc with rfl | hc
  · rfl
  · rw [List.eq_of_mem_replicate hc]
    rfl

theorem prettyAt_scalar (level : ℕ) (hitems : v.items? = none) (hmembers : v.members? = none) :
    prettyAt level v = scalar v := by
  cases v with
  | array _ => cases hitems
  | object _ => cases hmembers
  | _ => simp only [prettyAt]

theorem toList_array_nil (level : ℕ) : (prettyAt level (.array [])).toList = ['[', ']'] := by
  rw [prettyAt]
  rfl

theorem toList_object_nil (level : ℕ) : (prettyAt level (.object [])).toList = ['\x7b', '\x7d'] := by
  rw [prettyAt]
  rfl

theorem toList_array (level : ℕ) (item : Json) (items : List Json) :
    (prettyAt level (.array (item :: items))).toList =
      '[' :: ((newline (level + 1)).toList ++ ((prettyAt (level + 1) item).toList ++
        (prettyItems level items).toList)) := by
  rw [prettyAt]
  simp

theorem toList_items_nil (level : ℕ) : (prettyItems level []).toList = (newline level).toList ++ [']'] := by
  rw [prettyItems]
  simp

theorem toList_items (level : ℕ) (item : Json) (items : List Json) :
    (prettyItems level (item :: items)).toList =
      ',' :: ((newline (level + 1)).toList ++ ((prettyAt (level + 1) item).toList ++
        (prettyItems level items).toList)) := by
  rw [prettyItems]
  simp

def label (key : String) : List Char :=
  (quoted key).toList ++ [':', ' ']

theorem toList_object (level : ℕ) (m : String × Json) (members : List (String × Json)) :
    (prettyAt level (.object (m :: members))).toList =
      '\x7b' :: ((newline (level + 1)).toList ++ (label m.1 ++ ((prettyAt (level + 1) m.2).toList ++
        (prettyMembers level members).toList))) := by
  rw [prettyAt]
  simp [label]

theorem toList_members_nil (level : ℕ) : (prettyMembers level []).toList = (newline level).toList ++ ['\x7d'] := by
  rw [prettyMembers]
  simp

theorem toList_members (level : ℕ) (m : String × Json) (members : List (String × Json)) :
    (prettyMembers level (m :: members)).toList =
      ',' :: ((newline (level + 1)).toList ++ (label m.1 ++ ((prettyAt (level + 1) m.2).toList ++
        (prettyMembers level members).toList))) := by
  rw [prettyMembers]
  simp [label]

theorem Legible.starts (h : v.Legible) (level : ℕ) : Starts (prettyAt level v).toList := by
  have hscalar : v.items? = none → v.members? = none → Starts (prettyAt level v).toList := by
    intro hitems hmembers
    obtain ⟨c, cs, hcons, hc⟩ := h.exists_head_scalar hitems hmembers
    rw [prettyAt_scalar level hitems hmembers]
    exact ⟨c, cs, hcons, hc.not_isSpacing, hc.ne (by decide)⟩
  cases v with
  | array items =>
    cases items with
    | nil => exact ⟨'[', _, toList_array_nil level, by decide⟩
    | cons item items => exact ⟨'[', _, toList_array level item items, by decide⟩
  | object members =>
    cases members with
    | nil => exact ⟨'\x7b', _, toList_object_nil level, by decide⟩
    | cons m members => exact ⟨'\x7b', _, toList_object level m members, by decide⟩
  | _ => exact hscalar rfl rfl

theorem stops_cons {c : Char} (h : c ∈ [',', '\n']) (rest : List Char) : Stops (c :: rest) := by
  intro d hd
  obtain rfl := Option.some.inj hd
  rcases List.mem_cons.1 h with rfl | h
  · decide
  · obtain rfl := List.mem_singleton.1 h
    decide

theorem stops_newline (level : ℕ) (rest : List Char) : Stops ((newline level).toList ++ rest) := by
  rw [toList_newline]
  exact stops_cons (by decide) _

theorem stops_items (level : ℕ) (items : List Json) (rest : List Char) :
    Stops ((prettyItems level items).toList ++ rest) := by
  cases items with
  | nil =>
    rw [toList_items_nil, List.append_assoc]
    exact stops_newline level _
  | cons item items =>
    rw [toList_items]
    exact stops_cons (by decide) _

theorem stops_members (level : ℕ) (members : List (String × Json)) (rest : List Char) :
    Stops ((prettyMembers level members).toList ++ rest) := by
  cases members with
  | nil =>
    rw [toList_members_nil, List.append_assoc]
    exact stops_newline level _
  | cons m members =>
    rw [toList_members]
    exact stops_cons (by decide) _

def ReadsBack (v : Json) : Prop :=
  ∀ {fuel depth level : ℕ} {rest : List Char}, Stops rest → 2 * (prettyAt level v).toList.length ≤ fuel →
    readValue fuel depth ((prettyAt level v).toList ++ rest) =
      if v.depth ≤ depth then some (v.reread returned, rest) else none

variable {fuel bound level : ℕ} {rest : List Char}

variable {item : Json} {items seen : List Json}

theorem readItems_step (hitem : item.ReadsBack) (hrest : Stops rest)
    (hfuel : 2 * (prettyAt level item).toList.length ≤ fuel) :
    readItems (fuel + 1) bound seen ((prettyAt level item).toList ++ rest) =
      if item.depth ≤ bound then
        match skipSpacing rest with
        | ',' :: after => readItems fuel bound (item.reread returned :: seen) (skipSpacing after)
        | ']' :: after => some ((item.reread returned :: seen).reverse, after)
        | _ => none
      else none := by
  rw [readItems, hitem hrest hfuel]
  by_cases hdepth : item.depth ≤ bound
  · rw [if_pos hdepth]
    exact (if_pos hdepth).symm
  · rw [if_neg hdepth, if_neg hdepth]

theorem readItems_items (hall : ∀ v ∈ item :: items, v.Legible ∧ v.ReadsBack)
    (hfuel : 2 * ((prettyAt (level + 1) item).toList.length + (prettyItems level items).toList.length) < fuel) :
    readItems fuel bound seen
        ((prettyAt (level + 1) item).toList ++ ((prettyItems level items).toList ++ rest)) =
      if itemsDepth (item :: items) ≤ bound then some (seen.reverse ++ (item :: items).map (reread returned), rest)
      else none := by
  induction items generalizing item fuel seen with
  | nil =>
    obtain ⟨fuel, rfl⟩ := Nat.exists_eq_succ_of_ne_zero (Nat.ne_zero_of_lt hfuel)
    have hafter : skipSpacing ((prettyItems level []).toList ++ rest) = ']' :: rest := by
      rw [toList_items_nil, List.append_assoc, skipSpacing_newline]
      rfl
    rw [readItems_step (hall item List.mem_cons_self).2 (stops_items level [] rest) (by omega), hafter]
    simp [itemsDepth]
  | cons next items ih =>
    obtain ⟨fuel, rfl⟩ := Nat.exists_eq_succ_of_ne_zero (Nat.ne_zero_of_lt hfuel)
    obtain ⟨hitem, hrest⟩ := List.forall_mem_cons.1 hall
    have hlength : (prettyItems level (next :: items)).toList.length = (newline (level + 1)).toList.length +
        ((prettyAt (level + 1) next).toList.length + (prettyItems level items).toList.length) + 1 := by
      rw [toList_items, List.length_cons, List.length_append, List.length_append]
    have hafter : skipSpacing ((prettyItems level (next :: items)).toList ++ rest) =
        ',' :: ((newline (level + 1)).toList ++ ((prettyAt (level + 1) next).toList ++
          ((prettyItems level items).toList ++ rest))) := by
      rw [toList_items, List.cons_append, List.append_assoc, List.append_assoc]
      rfl
    have hstarts := ((hrest next List.mem_cons_self).1.starts (level + 1)).append
      ((prettyItems level items).toList ++ rest)
    rw [readItems_step hitem.2 (stops_items level (next :: items) rest) (by omega), hafter]
    simp only [skipSpacing_newline, hstarts.skipSpacing, ih hrest (by omega : _ < fuel)]
    by_cases hdepth : item.depth ≤ bound <;> simp [hdepth, itemsDepth]

variable {key : String} {value : Json} {gathered : List (String × Json)}

theorem readString_label (key : String) (rest : List Char) :
    ∃ cs, label key ++ rest = '"' :: cs ∧ readString cs = some (key, ':' :: ' ' :: rest) := by
  refine ⟨key.toList.flatMap escapeChar ++ '"' :: ':' :: ' ' :: rest, ?_, readString_quoted key _⟩
  simp [label, toList_quoted]

theorem Legible.skipSpacing_blank (h : value.Legible) (level : ℕ) (rest : List Char) :
    skipSpacing (' ' :: ((prettyAt level value).toList ++ rest)) = (prettyAt level value).toList ++ rest :=
  ((h.starts level).append rest).skipSpacing

theorem readMembers_step (hlegible : value.Legible) (hvalue : value.ReadsBack) (hrest : Stops rest)
    (hfuel : 2 * (prettyAt level value).toList.length ≤ fuel) :
    readMembers (fuel + 1) bound gathered (label key ++ ((prettyAt level value).toList ++ rest)) =
      if value.depth ≤ bound then
        match skipSpacing rest with
        | ',' :: after => readMembers fuel bound (insertMember key (value.reread returned) gathered) (skipSpacing after)
        | '\x7d' :: after => some (insertMember key (value.reread returned) gathered, after)
        | _ => none
      else none := by
  obtain ⟨cs, hlabel, hkey⟩ := readString_label key ((prettyAt level value).toList ++ rest)
  have hcolon : ∀ text : List Char, skipSpacing (':' :: text) = ':' :: text := fun _ => rfl
  rw [hlabel, readMembers]
  simp only [hkey, hcolon, hlegible.skipSpacing_blank, hvalue hrest hfuel]
  by_cases hdepth : value.depth ≤ bound
  · rw [if_pos hdepth]
    exact (if_pos hdepth).symm
  · rw [if_neg hdepth, if_neg hdepth]

theorem insertMember_last (h : ∀ m ∈ gathered, m.1 < key) :
    insertMember key value gathered = gathered ++ [(key, value)] := by
  induction gathered with
  | nil => rfl
  | cons m gathered ih =>
    obtain ⟨hm, hrest⟩ := List.forall_mem_cons.1 h
    have hne : ¬(key == m.1) = true := by simpa using hm.ne'
    rw [insertMember, if_neg hm.not_gt, if_neg hne, ih hrest, List.cons_append]

theorem starts_label (key : String) (rest : List Char) : Starts (label key ++ rest) :=
  ⟨'"', _, by rw [label, toList_quoted]; rfl, by decide⟩

theorem readMembers_members {m : String × Json} {members : List (String × Json)}
    (hall : ∀ m' ∈ m :: members, m'.2.Legible ∧ m'.2.ReadsBack) (hasc : Ascending (m :: members))
    (hgathered : ∀ m' ∈ gathered, m'.1 < m.1)
    (hfuel : 2 * ((prettyAt (level + 1) m.2).toList.length + (prettyMembers level members).toList.length) < fuel) :
    readMembers fuel bound gathered
        (label m.1 ++ ((prettyAt (level + 1) m.2).toList ++ ((prettyMembers level members).toList ++ rest))) =
      if membersDepth (m :: members) ≤ bound then
        some (gathered ++ (m :: members).map fun m => (m.1, m.2.reread returned), rest)
      else none := by
  induction members generalizing m fuel gathered with
  | nil =>
    obtain ⟨fuel, rfl⟩ := Nat.exists_eq_succ_of_ne_zero (Nat.ne_zero_of_lt hfuel)
    obtain ⟨hlegible, hvalue⟩ := hall m List.mem_cons_self
    have hafter : skipSpacing ((prettyMembers level []).toList ++ rest) = '\x7d' :: rest := by
      rw [toList_members_nil, List.append_assoc, skipSpacing_newline]
      rfl
    rw [readMembers_step hlegible hvalue (stops_members level [] rest) (by omega), hafter,
      insertMember_last hgathered]
    simp [membersDepth]
  | cons next members ih =>
    obtain ⟨fuel, rfl⟩ := Nat.exists_eq_succ_of_ne_zero (Nat.ne_zero_of_lt hfuel)
    obtain ⟨⟨hlegible, hvalue⟩, hrest⟩ := List.forall_mem_cons.1 hall
    obtain ⟨hfirst, hasc'⟩ := List.pairwise_cons.1 hasc
    have hlength : (prettyMembers level (next :: members)).toList.length = (newline (level + 1)).toList.length +
        ((label next.1).length + ((prettyAt (level + 1) next.2).toList.length +
          (prettyMembers level members).toList.length)) + 1 := by
      rw [toList_members, List.length_cons, List.length_append, List.length_append, List.length_append]
    have hafter : skipSpacing ((prettyMembers level (next :: members)).toList ++ rest) =
        ',' :: ((newline (level + 1)).toList ++ (label next.1 ++ ((prettyAt (level + 1) next.2).toList ++
          ((prettyMembers level members).toList ++ rest)))) := by
      rw [toList_members, List.cons_append, List.append_assoc, List.append_assoc, List.append_assoc]
      rfl
    -- the keys come in order, so what was gathered stays before what is still to come
    have hgathered' : ∀ m' ∈ gathered ++ [(m.1, m.2.reread returned)], m'.1 < next.1 := by
      intro m' hm'
      have hlt := hfirst next List.mem_cons_self
      rcases List.mem_append.1 hm' with hm' | hm'
      · exact (hgathered m' hm').trans hlt
      · rwa [List.mem_singleton.1 hm']
    rw [readMembers_step hlegible hvalue (stops_members level (next :: members) rest) (by omega), hafter]
    simp only [skipSpacing_newline, (starts_label next.1 _).skipSpacing, insertMember_last hgathered,
      ih hrest hasc' hgathered' (by omega : _ < fuel)]
    by_cases hdepth : m.2.depth ≤ bound <;> simp [hdepth, membersDepth]

theorem readsBack_scalar (h : v.Legible) (hitems : v.items? = none) (hmembers : v.members? = none) :
    v.ReadsBack := by
  intro fuel bound level rest hrest hfuel
  have hdepth : v.depth ≤ bound := by
    cases v with
    | array _ => cases hitems
    | object _ => cases hmembers
    | _ => exact Nat.zero_le _
  obtain ⟨c, cs, hcons, hc⟩ := h.exists_head_scalar hitems hmembers
  rw [prettyAt_scalar level hitems hmembers, hcons, List.length_cons] at hfuel
  obtain ⟨fuel, rfl⟩ := Nat.exists_eq_succ_of_ne_zero (show fuel ≠ 0 by omega)
  have hread := h.readScalar hitems hmembers hrest
  rw [prettyAt_scalar level hitems hmembers, if_pos hdepth, ← hread, hcons, List.cons_append]
  have hbracket : c ≠ '[' := hc.ne (by decide)
  have hbrace : c ≠ '\x7b' := hc.ne (by decide)
  rw [readValue]
  all_goals simp [hbracket, hbrace]

theorem readValue_array {text : List Char} (h : Starts text) :
    readValue (fuel + 1) (bound + 1) ('[' :: ((newline level).toList ++ text)) =
      (readItems fuel bound [] text).map fun r => (.array r.1, r.2) := by
  obtain ⟨c, cs, hcons, -, hc⟩ := id h
  rw [readValue, skipSpacing_newline, h.skipSpacing, hcons]
  split
  · next heq => exact absurd (List.cons.inj heq).1 hc
  · rfl

theorem readsBack_array (hall : ∀ v ∈ items, v.Legible ∧ v.ReadsBack) : (array items).ReadsBack := by
  intro fuel bound level rest hrest hfuel
  have hpos : 0 < (prettyAt level (.array items)).toList.length := by
    cases items with
    | nil => rw [toList_array_nil]; exact Nat.succ_pos _
    | cons item items => rw [toList_array]; exact Nat.succ_pos _
  obtain ⟨fuel, rfl⟩ := Nat.exists_eq_succ_of_ne_zero (show fuel ≠ 0 by omega)
  cases items with
  | nil =>
    rw [toList_array_nil]
    cases bound <;> rfl
  | cons item items =>
    have hstarts := ((hall item List.mem_cons_self).1.starts (level + 1)).append
      ((prettyItems level items).toList ++ rest)
    rw [toList_array, List.length_cons, List.length_append, List.length_append] at hfuel
    rw [toList_array, List.cons_append, List.append_assoc, List.append_assoc]
    cases bound with
    | zero => rfl
    | succ bound =>
      rw [readValue_array hstarts, readItems_items hall (by omega), depth, reread, rereadItems_eq]
      by_cases hdepth : itemsDepth (item :: items) ≤ bound <;> simp [hdepth]

theorem readValue_object (key : String) (text : List Char) :
    readValue (fuel + 1) (bound + 1) ('\x7b' :: ((newline level).toList ++ (label key ++ text))) =
      (readMembers fuel bound [] (label key ++ text)).map fun r => (.object r.1, r.2) := by
  obtain ⟨cs, hlabel, -⟩ := readString_label key text
  rw [readValue, skipSpacing_newline, (starts_label key text).skipSpacing, hlabel]
  rfl

theorem readsBack_object {members : List (String × Json)} (hasc : Ascending members)
    (hall : ∀ m ∈ members, m.2.Legible ∧ m.2.ReadsBack) : (object members).ReadsBack := by
  intro fuel bound level rest hrest hfuel
  have hpos : 0 < (prettyAt level (.object members)).toList.length := by
    cases members with
    | nil => rw [toList_object_nil]; exact Nat.succ_pos _
    | cons m members => rw [toList_object]; exact Nat.succ_pos _
  obtain ⟨fuel, rfl⟩ := Nat.exists_eq_succ_of_ne_zero (show fuel ≠ 0 by omega)
  cases members with
  | nil =>
    rw [toList_object_nil]
    cases bound <;> rfl
  | cons m members =>
    rw [toList_object, List.length_cons, List.length_append, List.length_append, List.length_append] at hfuel
    rw [toList_object, List.cons_append, List.append_assoc, List.append_assoc, List.append_assoc]
    cases bound with
    | zero => rfl
    | succ bound =>
      rw [readValue_object, readMembers_members hall hasc (List.forall_mem_nil _) (by omega), depth, reread,
        rereadMembers_eq]
      by_cases hdepth : membersDepth (m :: members) ≤ bound <;> simp [hdepth]

theorem Legible.readsBack (h : v.Legible) : v.ReadsBack := by
  induction h with
  | null => exact readsBack_scalar .null rfl rfl
  | bool b => exact readsBack_scalar (.bool b) rfl rfl
  | int hlow hhigh => exact readsBack_scalar (.int hlow hhigh) rfl rfl
  | real hx => exact readsBack_scalar (.real hx) rfl rfl
  | string s => exact readsBack_scalar (.string s) rfl rfl
  | array hall ih => exact readsBack_array fun v hv => ⟨hall v hv, ih v hv⟩
  | object hasc hall ih => exact readsBack_object hasc fun m hm => ⟨hall m hm, ih m hm⟩

/-- The text of a value is accepted if and only if the value is not nested too deep. -/
theorem Legible.parse?_pretty (h : v.Legible) :
    parse? v.pretty = if v.depth ≤ maxDepth then some (v.reread returned) else none := by
  have hstops : Stops [] := fun _ hc => nomatch hc
  have hread : readValue (2 * v.pretty.toList.length + 2) maxDepth (v.pretty.toList ++ []) =
      if v.depth ≤ maxDepth then some (v.reread returned, []) else none := 
    h.readsBack hstops (Nat.le_add_right _ _)
  have hstarts : skipSpacing v.pretty.toList = v.pretty.toList := (h.starts 0).skipSpacing
  rw [List.append_nil] at hread
  rw [parse?, hstarts, hread]
  by_cases hdepth : v.depth ≤ maxDepth
  · rw [if_pos hdepth, if_pos hdepth]
    rfl
  · rw [if_neg hdepth, if_neg hdepth]

theorem lawful_standard : Library.standard.json.Lawful returned :=
  ⟨legible_parse?, writes_returned, Legible.parse?_pretty⟩

end BlockCanvas.Json
