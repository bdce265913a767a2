import BlockCanvas.Json.Parser
import BlockCanvas.Proofs.JsonLaws
import BlockCanvas.Proofs.JsonNumbers

/-!
What the reader of JSON text makes of any text: a value that can be written, with numbers that JSON has and the
keys of every object in order (`Json.legible_parse?`).
-/
namespace BlockCanvas.Json

variable {value v : Json}

structure Hereditary (P : Json → Prop) : Prop where
  scalar : ∀ cs r, readScalar cs = some r → P r.1
  array : ∀ items, (∀ v ∈ items, P v) → P (.array items)
  object : ∀ members, Ascending members → (∀ m ∈ members, P m.2) → P (.object members)

section Induction
variable {P : Json → Prop}

mutual
theorem readValue_induction (hP : Hereditary P) {value : Json} {rest : List Char} :
    ∀ fuel depth cs, readValue fuel depth cs = some (value, rest) → P value
  | 0, _, _, h => by
    unfold readValue at h
    cases h
  | fuel + 1, depth, cs, h => by
    unfold readValue at h
    split at h
    · split at h
      · cases h
      · split at h
        · obtain rfl := congrArg Prod.fst (Option.some.inj h)
          exact hP.array _ (List.forall_mem_nil _)
        · obtain ⟨⟨items, rest⟩, hitems, he⟩ := Option.map_eq_some_iff.1 h
          obtain rfl := congrArg Prod.fst he
          exact hP.array _ (readItems_induction hP fuel _ _ _ (List.forall_mem_nil _) hitems)
    · split at h
      · cases h
      · split at h
        · obtain rfl := congrArg Prod.fst (Option.some.inj h)
          exact hP.object _ List.Pairwise.nil (List.forall_mem_nil _)
        · obtain ⟨⟨members, rest⟩, hmembers, he⟩ := Option.map_eq_some_iff.1 h
          obtain rfl := congrArg Prod.fst he
          obtain ⟨hasc, hall⟩ := readMembers_induction hP fuel _ _ _ List.Pairwise.nil
            (List.forall_mem_nil _) hmembers
          exact hP.object _ hasc hall
    · exact hP.scalar _ _ h
theorem readItems_induction (hP : Hereditary P) {items : List Json} {rest : List Char} :
    ∀ fuel depth seen cs, (∀ v ∈ seen, P v) → readItems fuel depth seen cs = some (items, rest) →
      ∀ v ∈ items, P v
  | 0, _, _, _, _, h => by
    unfold readItems at h
    cases h
  | fuel + 1, depth, seen, cs, hseen, h => by
    unfold readItems at h
    split at h
    · cases h
    · next item _ hitem =>
      have hseen' : ∀ v ∈ item :: seen, P v :=
        List.forall_mem_cons.2 ⟨readValue_induction hP fuel _ _ hitem, hseen⟩
      split at h
      · exact readItems_induction hP fuel _ _ _ hseen' h
      · obtain rfl := congrArg Prod.fst (Option.some.inj h)
        exact fun v hv => hseen' v (List.mem_reverse.1 hv)
      · cases h
theorem readMembers_induction (hP : Hereditary P) {members : List (String × Json)} {rest : List Char} :
    ∀ fuel depth seen cs, Ascending seen → (∀ m ∈ seen, P m.2) →
      readMembers fuel depth seen cs = some (members, rest) →
        Ascending members ∧ ∀ m ∈ members, P m.2
  | 0, _, _, _, _, _, h => by
    unfold readMembers at h
    cases h
  | fuel + 1, depth, seen, cs, hasc, hseen, h => by
    unfold readMembers at h
    split at h
    · split at h
      · cases h
      · next key _ _ =>
        split at h
        · split at h
          · cases h
          · next value _ hvalue =>
            have hasc' : Ascending (insertMember key value seen) := ascending_insertMember hasc
            have hseen' : ∀ m ∈ insertMember key value seen, P m.2 := fun m hm => by
              rcases mem_insertMember hm with rfl | hm
              · exact readValue_induction hP fuel _ _ hvalue
              · exact hseen m hm
            simp only at h
            split at h
            · exact readMembers_induction hP fuel _ _ _ hasc' hseen' h
            · obtain rfl := congrArg Prod.fst (Option.some.inj h)
              exact ⟨hasc', hseen'⟩
            · cases h
        · cases h
    · cases h
end

theorem parse?_induction (hP : Hereditary P) {text : String} (h : parse? text = some value) : P value := by
  rw [parse?] at h
  split at h
  · next hvalue =>
    split at h
    · obtain rfl := Option.some.inj h
      exact readValue_induction hP _ _ _ hvalue
    · cases h
  · cases h

end Induction

theorem legible_readNumber {negative : Bool} {whole cs : List Char} {r : Json × List Char}
    (h : readNumber negative whole cs = some r) : r.1.Legible := by
  rw [readNumber_eq] at h
  split at h
  · cases h
  · split_ifs at h with hpoint hlead hwhole hsigned hnegative
    · obtain rfl := Option.some.inj h
      simp only [Bool.and_eq_true, decide_eq_true_eq] at hwhole
      have hlt : Decimal.natOf whole < 2 ^ 64 := hwhole.2
      exact .int (by omega) (by omega)
    · obtain rfl := Option.some.inj h
      simp only [Bool.and_eq_true, decide_eq_true_eq] at hsigned
      have hle : Decimal.natOf whole ≤ 2 ^ 63 := hsigned.2
      exact .int (by omega) (by omega)
    -- a double, with or without its sign
    all_goals
      dsimp only at h
      split at h
      · next hfinite =>
        obtain rfl := Option.some.inj h
        first | exact .real (writes_of_finite hfinite) | exact .real (writes_of_finite hfinite).neg
      · cases h

theorem legible_readWord {word : String} {cs : List Char} {r : Json × List Char} (hv : v.Legible)
    (h : readWord word v cs = some r) : r.1.Legible := by
  rw [readWord] at h
  split at h
  · obtain rfl := Option.some.inj h
    exact hv
  · cases h

theorem legible_readScalar {cs : List Char} {r : Json × List Char} (h : Json.readScalar cs = some r) :
    r.1.Legible := by
  unfold Json.readScalar at h
  split at h
  · obtain ⟨r, -, rfl⟩ := Option.map_eq_some_iff.1 h
    exact .string _
  · exact legible_readWord .null h
  · exact legible_readWord (.bool _) h
  · exact legible_readWord (.bool _) h
  · exact legible_readNumber h
  · exact legible_readNumber h

theorem legible_parse? {text : String} (h : parse? text = some v) : v.Legible :=
  parse?_induction ⟨fun _ _ => legible_readScalar, fun _ => .array, fun _ => .object⟩ h

end BlockCanvas.Json
