import AbiRecovery.Program.Literal
import Mathlib.Data.List.Induction
import Mathlib.Data.List.TakeWhile
import Mathlib.Data.Nat.Digits.Defs

/-!
# Written numbers

What it means that a text is a number in writing (`Renders`): the mark of a radix, digits, maybe the
name of an integer type, and underscores anywhere. A literal is read as a number exactly if it
renders it (`value?_eq_some_iff`).

A suffix starts with a letter that is a digit in no radix up to sixteen, so the digits end where it
starts; and it is no mark of a radix, so a decimal number is not taken for one in another radix.

The grammar of literals (`Denotes`) says the same without the reader's own digits: these are the
digits in which numbers are written, in either case (`digit?_eq_some_iff`). So a number that is
written out in any way (`WritesOut`) is read back.
-/

namespace AbiRecovery.Literal

/-! ### Renderings -/

/-- The radixes, each with the marks that stand in front of its digits. -/
def radixMarks : List (Nat × List Char) :=
  [(10, []), (16, ['0', 'x']), (16, ['0', 'X']), (8, ['0', 'o']), (8, ['0', 'O']),
    (2, ['0', 'b']), (2, ['0', 'B'])]

/-- What may stand behind the digits: nothing, or the name of an integer type. -/
def Suffix (suffix : List Char) : Prop :=
  suffix = [] ∨ String.ofList suffix ∈ suffixes

/-- The digits of a number, the most significant one first. -/
def Writes (radix : Nat) (digits : List Char) (number : Nat) : Prop :=
  ∃ values : List Nat, digits.map (Text.digit? radix) = values.map some ∧
    Nat.ofDigits radix values.reverse = number

/-- A text **renders** a number: apart from underscores it is the mark of a radix, the digits of the
number in this radix, and a suffix. -/
inductive Renders (text : String) (number : UInt64) : Prop
  | intro {radix : Nat} {mark digits suffix : List Char} : (radix, mark) ∈ radixMarks →
    text.toList.filter (· ≠ '_') = mark ++ (digits ++ suffix) → digits ≠ [] →
      Writes radix digits number.toNat → Suffix suffix → Renders text number

/-! ### Digits -/

theorem numberOf_eq (radix : Nat) (digits : List Char) :
    numberOf radix digits =
      Nat.ofDigits radix (digits.map fun c => (Text.digit? radix c).getD 0).reverse := by
  induction digits using List.reverseRecOn with
  | nil => rfl
  | append_singleton digits c ih =>
    unfold numberOf at ih ⊢
    rw [List.foldl_append, ih, List.map_append, List.map_singleton, List.reverse_append,
      List.reverse_singleton, List.singleton_append, Nat.ofDigits_cons, Nat.add_comm]
    rfl

theorem writes_iff {radix number : Nat} {digits : List Char} :
    Writes radix digits number ↔
      (∀ c ∈ digits, isDigit radix c = true) ∧ numberOf radix digits = number := by
  rw [numberOf_eq]
  constructor
  · rintro ⟨values, hvalues, rfl⟩
    constructor
    · intro c hc
      have hmem : Text.digit? radix c ∈ values.map some := hvalues ▸ List.mem_map_of_mem hc
      obtain ⟨value, -, hvalue⟩ := List.mem_map.mp hmem
      rw [isDigit, ← hvalue, Option.isSome_some]
    · have hread := congrArg (List.map fun value? => value?.getD 0) hvalues
      simp only [List.map_map, Function.comp_def, Option.getD_some, List.map_id'] at hread
      rw [hread]
  · rintro ⟨hdigits, hnumber⟩
    refine ⟨_, ?_, hnumber⟩
    rw [List.map_map]
    refine List.map_congr_left fun c hc => ?_
    obtain ⟨value, hvalue⟩ := Option.isSome_iff_exists.mp (hdigits c hc)
    rw [Function.comp_apply, hvalue, Option.getD_some]

/-! ### Marks and suffixes -/

theorem radix_le_of_mark : ∀ entry ∈ radixMarks, entry.1 ≤ 16 := by decide

theorem Suffix.head_eq {suffix : List Char} (h : Suffix suffix) {c : Char}
    (hc : suffix.head? = some c) : c = 'u' ∨ c = 'i' := by
  have hheads : ∀ name ∈ suffixes, name.toList.head? = some 'u' ∨ name.toList.head? = some 'i' := by
    decide
  rcases h with rfl | hmem
  · cases hc
  · have hhead := hheads _ hmem
    rw [String.toList_ofList, hc, Option.some.injEq, Option.some.injEq] at hhead
    exact hhead

theorem Suffix.not_isDigit {suffix : List Char} (h : Suffix suffix) {c : Char}
    (hc : suffix.head? = some c) {radix : Nat} (hradix : radix ≤ 16) :
    isDigit radix c = false := by
  have hu : Text.digit? radix 'u' = Option.filter (· < radix) (some 30) := rfl
  have hi : Text.digit? radix 'i' = Option.filter (· < radix) (some 18) := rfl
  rcases h.head_eq hc with rfl | rfl
  · rw [isDigit, hu, Option.filter_some_neg (by simp; omega), Option.isSome_none]
  · rw [isDigit, hi, Option.filter_some_neg (by simp; omega), Option.isSome_none]

theorem splitRadix_eq {text rest : List Char} {radix : Nat}
    (h : splitRadix text = (radix, rest)) :
    ∃ mark, (radix, mark) ∈ radixMarks ∧ text = mark ++ rest := by
  unfold splitRadix at h
  split at h <;> cases h
  · exact ⟨['0', 'x'], by decide, rfl⟩
  · exact ⟨['0', 'X'], by decide, rfl⟩
  · exact ⟨['0', 'o'], by decide, rfl⟩
  · exact ⟨['0', 'O'], by decide, rfl⟩
  · exact ⟨['0', 'b'], by decide, rfl⟩
  · exact ⟨['0', 'B'], by decide, rfl⟩
  · exact ⟨[], by decide, rfl⟩

theorem splitRadix_decimal {text : List Char}
    (h : ∀ c, text.tail.head? = some c → isDigit 10 c = true ∨ c = 'u' ∨ c = 'i') :
    splitRadix text = (10, text) := by
  unfold splitRadix
  split
  all_goals first | rfl | exact absurd (h _ rfl) (by decide)

/-- **The mark of a radix** is found in front of digits. -/
theorem splitRadix_append {radix : Nat} {mark digits suffix : List Char}
    (hmark : (radix, mark) ∈ radixMarks) (hne : digits ≠ [])
    (hdigits : ∀ c ∈ digits, isDigit radix c = true) (hsuffix : Suffix suffix) :
    splitRadix (mark ++ (digits ++ suffix)) = (radix, digits ++ suffix) := by
  simp only [radixMarks, List.mem_cons, Prod.mk.injEq, List.not_mem_nil, or_false] at hmark
  obtain ⟨rfl, rfl⟩ | hmark := hmark
  · obtain ⟨first, others, rfl⟩ := List.exists_cons_of_ne_nil hne
    refine splitRadix_decimal fun c hc => ?_
    cases others with
    | nil => exact Or.inr (hsuffix.head_eq hc)
    | cons second rest =>
      cases hc
      exact Or.inl (hdigits _ (by simp))
  · rcases hmark with
      ⟨rfl, rfl⟩ | ⟨rfl, rfl⟩ | ⟨rfl, rfl⟩ | ⟨rfl, rfl⟩ | ⟨rfl, rfl⟩ | ⟨rfl, rfl⟩ <;> rfl

/-! ### Literals -/

theorem span_digits {radix : Nat} {digits suffix : List Char}
    (hdigits : ∀ c ∈ digits, isDigit radix c = true)
    (hend : ∀ c, suffix.head? = some c → isDigit radix c = false) :
    (digits ++ suffix).takeWhile (isDigit radix) = digits ∧
      (digits ++ suffix).dropWhile (isDigit radix) = suffix := by
  rw [List.takeWhile_append_of_pos hdigits, List.dropWhile_append_of_pos hdigits]
  cases suffix with
  | nil => simp
  | cons c suffix => simp [hend c rfl]

theorem value?_of_writes {text : String} {radix number : Nat} {mark digits suffix : List Char}
    (hmark : (radix, mark) ∈ radixMarks)
    (htext : text.toList.filter (· ≠ '_') = mark ++ (digits ++ suffix)) (hne : digits ≠ [])
    (hwrites : Writes radix digits number) (hsuffix : Suffix suffix) :
    value? text = if number < UInt64.size then some (UInt64.ofNat number) else none := by
  obtain ⟨hdigits, hnumber⟩ := writes_iff.mp hwrites
  obtain ⟨htake, hdrop⟩ := span_digits hdigits fun c hc =>
    hsuffix.not_isDigit hc (radix_le_of_mark _ hmark)
  unfold value?
  rw [htext, splitRadix_append hmark hne hdigits hsuffix]
  simp only [htake, hdrop, hnumber]
  rw [if_neg (by rw [not_or, not_not]; exact ⟨hne, hsuffix⟩)]

/-- **A literal is read as a number** exactly if it renders it. -/
theorem value?_eq_some_iff {text : String} {number : UInt64} :
    value? text = some number ↔ Renders text number := by
  constructor
  · intro h
    unfold value? at h
    rcases hsplit : splitRadix (text.toList.filter (· ≠ '_')) with ⟨radix, rest⟩
    rw [hsplit] at h
    obtain ⟨mark, hmark, htext⟩ := splitRadix_eq hsplit
    simp only [Option.ite_none_left_eq_some, Option.ite_none_right_eq_some] at h
    obtain ⟨hform, hlt, heq⟩ := h
    obtain ⟨hne, hsuffix⟩ := not_or.mp hform
    rw [← List.takeWhile_append_dropWhile (p := isDigit radix) (l := rest)] at htext
    refine .intro hmark htext hne (writes_iff.mpr ⟨fun c => List.mem_takeWhile_imp, ?_⟩)
      (not_not.mp hsuffix)
    rw [← Option.some.inj heq, UInt64.toNat_ofNat_of_lt' hlt]
  · rintro ⟨hmark, htext, hne, hwrites, hsuffix⟩
    rw [value?_of_writes hmark htext hne hwrites hsuffix, if_pos number.toNat_lt_size,
      UInt64.ofNat_toNat]

/-! ### The grammar -/

/-- The **digits of a number** in a radix, the most significant one first, with letters in either
case. -/
def Digits (radix : Nat) (digits : List Char) (number : Nat) : Prop :=
  ∃ values : List Nat, (∀ value ∈ values, value < radix) ∧
    digits.map Char.toLower = values.map Nat.digitChar ∧ Nat.ofDigits radix values.reverse = number

/-- A literal **denotes** a number: apart from underscores it is the mark of a radix, digits of the
number in this radix and a suffix, or, without any mark in front, decimal digits and a suffix. -/
inductive Denotes (text : String) (number : Nat) : Prop
  | marked {radix : Nat} {mark digits suffix : List Char} : (radix, mark) ∈ radixMarks →
    mark ≠ [] → text.toList.filter (· ≠ '_') = mark ++ (digits ++ suffix) → digits ≠ [] →
      Digits radix digits number → Suffix suffix → Denotes text number
  | decimal {digits suffix : List Char} :
    (∀ entry ∈ radixMarks, entry.2 ≠ [] → ¬ entry.2 <+: text.toList.filter (· ≠ '_')) →
      text.toList.filter (· ≠ '_') = digits ++ suffix → digits ≠ [] → Digits 10 digits number →
        Suffix suffix → Denotes text number

/-- A text **writes out** a number: in a radix, behind any mark of it and any number of zeros, with
letters in either case, any suffix, and underscores anywhere. -/
inductive WritesOut (text : String) (number : Nat) : Prop
  | intro {radix zeros : Nat} {mark digits suffix : List Char} : (radix, mark) ∈ radixMarks →
    digits.map Char.toLower = Nat.toDigits radix number → Suffix suffix →
      text.toList.filter (· ≠ '_') = mark ++ ((List.replicate zeros '0' ++ digits) ++ suffix) →
        WritesOut text number

theorem digit?_ascii : ∀ n < 128, ∀ value < 16,
    Text.digit? 16 (Char.ofNat n) = some value ↔
      (Char.ofNat n).toLower = Nat.digitChar value := by decide +kernel

theorem digit?_of_not_ascii {c : Char} (hc : 128 ≤ c.toNat) (radix : Nat) :
    Text.digit? radix c = none := by
  have habove : ∀ last : Char, last.toNat < 128 → ¬ c ≤ last := by
    intro last hlast hle
    have hnat : c.toNat ≤ last.toNat := hle
    omega
  unfold Text.digit?
  simp only [habove '9' (by decide), habove 'z' (by decide), habove 'Z' (by decide), and_false,
    if_false]
  rfl

theorem toLower_of_not_ascii {c : Char} (hc : 128 ≤ c.toNat) : c.toLower = c := by
  unfold Char.toLower
  rw [dif_neg]
  rintro ⟨-, hle⟩
  have hnat : c.toNat ≤ 'Z'.toNat := hle
  have hz : 'Z'.toNat = 90 := rfl
  omega

/-- **A digit** is read as the value that it is written for. -/
theorem digit?_eq_some_iff {radix value : Nat} (hradix : radix ≤ 16) {c : Char} :
    Text.digit? radix c = some value ↔ value < radix ∧ c.toLower = Nat.digitChar value := by
  have hsixteen : Text.digit? radix c = (Text.digit? 16 c).filter (· < radix) := by
    simp only [Text.digit?, Option.filter_filter]
    congr 1
    funext value
    rw [Bool.eq_iff_iff]
    simp only [Bool.and_eq_true, decide_eq_true_iff]
    omega
  rw [hsixteen, Option.filter_eq_some_iff, decide_eq_true_iff, and_comm]
  refine and_congr_right fun hvalue => ?_
  by_cases hc : c.toNat < 128
  · have hall := digit?_ascii c.toNat hc value (by omega)
    rwa [Char.ofNat_toNat] at hall
  · rw [digit?_of_not_ascii (by omega), toLower_of_not_ascii (by omega)]
    have hdigits : ∀ value < 16, (Nat.digitChar value).toNat < 128 := by decide
    have hdigit := hdigits value (by omega)
    constructor
    · intro h
      cases h
    · rintro rfl
      omega

theorem map_digit?_eq_iff {radix : Nat} (hradix : radix ≤ 16) (digits : List Char)
    (values : List Nat) :
    digits.map (Text.digit? radix) = values.map some ↔
      (∀ value ∈ values, value < radix) ∧ digits.map Char.toLower = values.map Nat.digitChar := by
  induction digits generalizing values with
  | nil => cases values <;> simp
  | cons c digits ih =>
    cases values with
    | nil => simp
    | cons value values =>
      simp only [List.map_cons, List.cons.injEq, List.forall_mem_cons, ih,
        digit?_eq_some_iff hradix]
      tauto

theorem writes_iff_digits {radix number : Nat} (hradix : radix ≤ 16) {digits : List Char} :
    Writes radix digits number ↔ Digits radix digits number := by
  unfold Writes Digits
  simp only [map_digit?_eq_iff hradix, and_assoc]

theorem splitRadix_mark {radix : Nat} {mark : List Char} (hmark : (radix, mark) ∈ radixMarks)
    (hne : mark ≠ []) (rest : List Char) :
    splitRadix (mark ++ rest) = (radix, rest) ∧ radix ≠ 10 := by
  simp only [radixMarks, List.mem_cons, Prod.mk.injEq, List.not_mem_nil, or_false] at hmark
  rcases hmark with ⟨rfl, rfl⟩ | ⟨rfl, rfl⟩ | ⟨rfl, rfl⟩ | ⟨rfl, rfl⟩ | ⟨rfl, rfl⟩ | ⟨rfl, rfl⟩ |
    ⟨rfl, rfl⟩
  · exact absurd rfl hne
  all_goals exact ⟨rfl, by decide⟩

theorem not_isPrefix_of_decimal {digits suffix : List Char} (hne : digits ≠ [])
    (hdigits : ∀ c ∈ digits, isDigit 10 c = true) (hsuffix : Suffix suffix)
    {entry : Nat × List Char} (hentry : entry ∈ radixMarks) (hmark : entry.2 ≠ []) :
    ¬ entry.2 <+: digits ++ suffix := by
  rintro ⟨rest, hrest⟩
  have hdecimal : splitRadix ([] ++ (digits ++ suffix)) = (10, digits ++ suffix) :=
    splitRadix_append (by decide) hne hdigits hsuffix
  obtain ⟨hsplit, hradix⟩ := splitRadix_mark hentry hmark rest
  rw [List.nil_append, ← hrest, hsplit] at hdecimal
  exact hradix (congrArg Prod.fst hdecimal)

/-- A literal denotes a number exactly if it has the mark of a radix, no mark being that of the
decimal numbers. -/
theorem denotes_iff {text : String} {number : Nat} :
    Denotes text number ↔ ∃ radix mark digits suffix, (radix, mark) ∈ radixMarks ∧
      text.toList.filter (· ≠ '_') = mark ++ (digits ++ suffix) ∧ digits ≠ [] ∧
        Writes radix digits number ∧ Suffix suffix := by
  constructor
  · rintro (⟨hmark, -, htext, hne, hdigits, hsuffix⟩ | ⟨-, htext, hne, hdigits, hsuffix⟩)
    · exact ⟨_, _, _, _, hmark, htext, hne,
        (writes_iff_digits (radix_le_of_mark _ hmark)).mpr hdigits, hsuffix⟩
    · exact ⟨10, [], _, _, by decide, htext, hne, (writes_iff_digits (by decide)).mpr hdigits,
        hsuffix⟩
  · rintro ⟨radix, mark, digits, suffix, hmark, htext, hne, hwrites, hsuffix⟩
    have hdigits := (writes_iff_digits (radix_le_of_mark _ hmark)).mp hwrites
    by_cases hempty : mark = []
    · subst hempty
      obtain rfl : radix = 10 := by
        have hten : ∀ entry ∈ radixMarks, entry.2 = [] → entry.1 = 10 := by decide
        exact hten _ hmark rfl
      rw [List.nil_append] at htext
      refine .decimal (fun entry hentry hentryMark => ?_) htext hne hdigits hsuffix
      rw [htext]
      exact not_isPrefix_of_decimal hne (writes_iff.mp hwrites).1 hsuffix hentry hentryMark
    · exact .marked hmark hempty htext hne hdigits hsuffix

/-! ### Numbers that are written out -/

theorem digits_of_toDigits {radix : Nat} (hradix : 1 < radix) {number : Nat} {digits : List Char}
    (h : digits.map Char.toLower = Nat.toDigits radix number) : Digits radix digits number := by
  unfold Digits
  rw [h]
  clear h
  induction number using Nat.base_induction radix hradix with
  | single digit hdigit =>
    exact ⟨[digit], by simpa using hdigit, Nat.toDigits_of_lt_base hdigit, by simp⟩
  | digit number digit hdigit hpos ih =>
    obtain ⟨values, hvalues, hchars, hnumber⟩ := ih
    refine ⟨values ++ [digit], ?_, ?_, ?_⟩
    · intro value hmem
      rcases List.mem_append.mp hmem with hmem | hmem
      · exact hvalues value hmem
      · rw [List.mem_singleton.mp hmem]
        exact hdigit
    · rw [← Nat.toDigits_append_toDigits hradix hpos hdigit, hchars,
        Nat.toDigits_of_lt_base hdigit, List.map_append]
      rfl
    · rw [List.reverse_append, List.reverse_singleton, List.singleton_append, Nat.ofDigits_cons,
        hnumber, Nat.add_comm]

theorem Digits.leading_zeros {radix number : Nat} {digits : List Char}
    (h : Digits radix digits number) (hradix : 0 < radix) (zeros : Nat) :
    Digits radix (List.replicate zeros '0' ++ digits) number := by
  obtain ⟨values, hvalues, hchars, hnumber⟩ := h
  refine ⟨List.replicate zeros 0 ++ values, ?_, ?_, ?_⟩
  · intro value hmem
    rcases List.mem_append.mp hmem with hmem | hmem
    · rw [List.eq_of_mem_replicate hmem]
      exact hradix
    · exact hvalues value hmem
  · rw [List.map_append, List.map_append, hchars, List.map_replicate, List.map_replicate]
    rfl
  · rw [List.reverse_append, List.reverse_replicate, Nat.ofDigits_append_replicate_zero, hnumber]

theorem WritesOut.denotes {text : String} {number : Nat} (h : WritesOut text number) :
    Denotes text number := by
  obtain @⟨radix, zeros, mark, digits, suffix, hmark, hdigits, hsuffix, htext⟩ := h
  have hradix : 1 < radix := by
    have hall : ∀ entry ∈ radixMarks, 1 < entry.1 := by decide
    exact hall _ hmark
  have hwritten : Digits radix (List.replicate zeros '0' ++ digits) number :=
    (digits_of_toDigits hradix hdigits).leading_zeros (by omega) zeros
  refine denotes_iff.mpr ⟨radix, mark, _, suffix, hmark, htext, fun hempty => ?_,
    (writes_iff_digits (radix_le_of_mark _ hmark)).mpr hwritten, hsuffix⟩
  rw [(List.append_eq_nil_iff.mp hempty).2] at hdigits
  exact Nat.toDigits_ne_nil hdigits.symm

/-- **The grammar of integer literals.** A literal is read as a number exactly if it denotes it. A
literal that denotes a number of more than 64 bits is not read at all, and every number of 64 bits
is read from each text that writes it out. -/
theorem literal_grammar :
    (∀ (text : String) (number : UInt64),
      value? text = some number ↔ Denotes text number.toNat) ∧
    (∀ (text : String) (number : Nat), Denotes text number → UInt64.size ≤ number →
      value? text = none) ∧
    ∀ (text : String) (number : UInt64), WritesOut text number.toNat →
      value? text = some number := by
  have hread : ∀ (text : String) (number : UInt64),
      value? text = some number ↔ Denotes text number.toNat := by
    intro text number
    rw [value?_eq_some_iff, denotes_iff]
    constructor
    · rintro ⟨hmark, htext, hne, hwrites, hsuffix⟩
      exact ⟨_, _, _, _, hmark, htext, hne, hwrites, hsuffix⟩
    · rintro ⟨_, _, _, _, hmark, htext, hne, hwrites, hsuffix⟩
      exact ⟨hmark, htext, hne, hwrites, hsuffix⟩
  refine ⟨hread, fun text number hdenotes hlarge => ?_, fun text number hwrites => ?_⟩
  · obtain ⟨radix, mark, digits, suffix, hmark, htext, hne, hwrites, hsuffix⟩ :=
      denotes_iff.mp hdenotes
    rw [value?_of_writes hmark htext hne hwrites hsuffix, if_neg (by omega)]
  · exact (hread text number).mpr hwrites.denotes

/-- The number 255 is read from `0x0_fF_u16`, and the first number of more than 64 bits is not read.
-/
theorem literal_grammar_at_limit :
    WritesOut "0x0_fF_u16" 255 ∧ value? "0x0_fF_u16" = some 255 ∧
      Denotes "18446744073709551616" UInt64.size ∧ value? "18446744073709551616" = none := by
  have hwrites : WritesOut "0x0_fF_u16" 255 := by
    refine @WritesOut.intro _ _ 16 1 ['0', 'x'] ['f', 'F'] ['u', '1', '6'] (by decide) ?_
      (Or.inr (by decide)) ?_
    · decide +kernel
    · decide +kernel
  have hdenotes : Denotes "18446744073709551616" UInt64.size := by
    refine WritesOut.denotes (@WritesOut.intro _ _ 10 0 [] "18446744073709551616".toList []
      (by decide) ?_ (Or.inl rfl) ?_)
    · decide +kernel
    · decide +kernel
  obtain ⟨-, hlarge, hwritten⟩ := literal_grammar
  exact ⟨hwrites, hwritten _ 255 hwrites, hdenotes, hlarge _ _ hdenotes (Nat.le_refl _)⟩

end AbiRecovery.Literal
