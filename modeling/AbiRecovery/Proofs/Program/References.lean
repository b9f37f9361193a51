import AbiRecovery.Program.Builder
import Mathlib.Data.List.Infix

/-!
# References that end in a variant

A written path is taken apart from its end, so its last two names are found whatever stands in front
of them (`segmentsFromEnd_eq_iff`), and a builder produces a variant exactly if its reference ends
in the enum and the variant (`Builder.produces_iff`). The path of a value whose last names are the
enum and the variant is such a reference (`endsIn_joined`).

A single name is looked for in the last segment of a reference (`LastSegment`). What stands behind
the last double colon is found whatever characters a name has (`head?_segmentsFromEnd_iff`), also
next to a run of more than two colons.

Names without a colon in them come back one by one when a path is written and taken apart again
(`segmentsFromEnd_intercalate`), so the path that a reference was written from decides what the
reference matches.
-/

namespace AbiRecovery

open AbiRecovery.Tree

/-! ### Taking a path apart -/

namespace Text

theorem not_infix_of_no_colon {name : List Char} (h : ':' ∉ name) :
    ¬ [':', ':'] <:+: name ++ [':'] := by
  intro hinside
  have hcount := hinside.sublist.count_le ':'
  rw [List.count_append, List.count_eq_zero_of_not_mem h] at hcount
  exact absurd hcount (by decide)

theorem splitBackwards_append (segment rest : List Char) {name : List Char}
    (h : ¬ [':', ':'] <:+: name ++ [':']) :
    splitBackwards segment (name ++ ':' :: ':' :: rest) =
      (name.reverse ++ segment) :: splitBackwards [] rest := by
  induction name generalizing segment with
  | nil => rfl
  | cons c name ih =>
    rw [List.cons_append, List.infix_cons_iff, not_or] at h
    rw [List.cons_append, splitBackwards, ih (c :: segment) h.2, List.reverse_cons,
      List.append_assoc, List.singleton_append]
    rintro text rfl htext
    refine h.1 (List.cons_prefix_cons.mpr ⟨rfl, ?_⟩)
    cases name with
    | nil => simp
    | cons second name =>
      rw [List.cons_append, List.cons.injEq] at htext
      simp [htext.1]

theorem splitBackwards_of_not_infix (segment : List Char) {name : List Char}
    (h : ¬ [':', ':'] <:+: name) : splitBackwards segment name = [name.reverse ++ segment] := by
  induction name generalizing segment with
  | nil => rfl
  | cons c name ih =>
    rw [List.infix_cons_iff, not_or] at h
    rw [splitBackwards, ih (c :: segment) h.2, List.reverse_cons, List.append_assoc,
      List.singleton_append]
    rintro text rfl rfl
    exact h.1 (by simp)

theorem segmentsFromEnd_of_no_colon {name : String} (h : ':' ∉ name.toList) :
    segmentsFromEnd name = [name] := by
  have hname := not_infix_of_no_colon (List.mem_reverse.not.mpr h)
  rw [segmentsFromEnd, splitBackwards_of_not_infix _
    fun hinside => hname (hinside.trans (List.prefix_append _ _).isInfix)]
  simp

theorem segmentsFromEnd_append {name : String} (h : ':' ∉ name.toList) (outer : String) :
    segmentsFromEnd (outer ++ "::" ++ name) = name :: segmentsFromEnd outer := by
  have hreverse : (outer ++ "::" ++ name).toList.reverse =
      name.toList.reverse ++ ':' :: ':' :: outer.toList.reverse := by simp
  rw [segmentsFromEnd, hreverse,
    splitBackwards_append _ _ (not_infix_of_no_colon (List.mem_reverse.not.mpr h))]
  simp [segmentsFromEnd]

/-- **Joining and taking apart** are inverse for names without colons. -/
theorem segmentsFromEnd_intercalate {names : List String} (hne : names ≠ [])
    (h : ∀ name ∈ names, ':' ∉ name.toList) :
    segmentsFromEnd ("::".intercalate names) = names.reverse := by
  induction names using List.reverseRecOn with
  | nil => exact absurd rfl hne
  | append_singleton outer last ih =>
    have hlast : ':' ∉ last.toList := h last (by simp)
    by_cases houter : outer = []
    · subst houter
      simpa using segmentsFromEnd_of_no_colon hlast
    · have hrest := ih houter fun name hname => h name (List.mem_append_left _ hname)
      rw [String.intercalate_append_of_ne_nil houter (by simp), String.intercalate_singleton,
        segmentsFromEnd_append hlast, hrest, List.reverse_concat]

theorem exists_first_double_colon (text : List Char) :
    ¬ [':', ':'] <:+: text ∨
      ∃ name rest, text = name ++ ':' :: ':' :: rest ∧ ¬ [':', ':'] <:+: name ++ [':'] := by
  induction text with
  | nil => exact Or.inl (by simp)
  | cons c text ih =>
    by_cases hhere : [':', ':'] <+: c :: text
    · obtain ⟨rest, hrest⟩ := hhere
      exact Or.inr ⟨[], rest, hrest.symm, by decide⟩
    · rcases ih with hnone | ⟨name, rest, rfl, hname⟩
      · left
        rw [List.infix_cons_iff, not_or]
        exact ⟨hhere, hnone⟩
      · refine Or.inr ⟨c :: name, rest, rfl, ?_⟩
        rw [List.cons_append, List.infix_cons_iff, not_or]
        refine ⟨fun hstart => hhere (hstart.trans ?_), hname⟩
        exact ⟨':' :: rest, by simp⟩

theorem splitBackwards_eq_cons {segment text first : List Char} {rest : List (List Char)}
    (h : splitBackwards segment text = first :: rest) :
    (rest = [] ∧ text.reverse ++ segment = first) ∨
      ∃ outer, splitBackwards [] outer = rest ∧
        text.reverse ++ segment = outer.reverse ++ ':' :: ':' :: first := by
  fun_induction splitBackwards segment text with
  | case1 segment text ih =>
    rw [List.cons.injEq] at h
    exact Or.inr ⟨text, h.2, by simp [h.1]⟩
  | case2 segment c text hc ih => simpa using ih h
  | case3 segment =>
    rw [List.cons.injEq] at h
    exact Or.inl ⟨h.2.symm, by simp [h.1]⟩

theorem hasInfixChars_iff {word text : List Char} :
    hasInfixChars word text = true ↔ word <:+: text := by
  induction text with
  | nil => simp [hasInfixChars]
  | cons c text ih =>
    rw [hasInfixChars, Bool.or_eq_true, ih, List.isPrefixOf_iff_prefix, List.infix_cons_iff]

theorem hasInfix_double_colon_iff {text : String} :
    hasInfix "::" text = true ↔ [':', ':'] <:+: text.toList.reverse := by
  rw [hasInfix, hasInfixChars_iff]
  exact List.reverse_infix.symm

end Text

/-- A reference **ends in** a variant of an enum. -/
def EndsIn (enumName variantName reference : String) : Prop :=
  reference = enumName ++ "::" ++ variantName ∨
    ∃ outer, reference = outer ++ "::" ++ enumName ++ "::" ++ variantName

theorem endsIn_iff_toList {enumName variantName reference : String} :
    EndsIn enumName variantName reference ↔
      reference.toList = enumName.toList ++ ':' :: ':' :: variantName.toList ∨
        ∃ outer, reference.toList =
          outer ++ ':' :: ':' :: (enumName.toList ++ ':' :: ':' :: variantName.toList) := by
  unfold EndsIn
  constructor
  · rintro (rfl | ⟨outer, rfl⟩)
    · exact Or.inl (by simp)
    · exact Or.inr ⟨outer.toList, by simp⟩
  · rintro (h | ⟨outer, h⟩)
    · exact Or.inl (String.toList_injective (by simp [h]))
    · exact Or.inr ⟨String.ofList outer, String.toList_injective (by simp [h])⟩

section
variable {enumName variantName : String} (henum : ':' ∉ enumName.toList)
  (hvariant : ':' ∉ variantName.toList)
include henum hvariant

theorem segmentsFromEnd_eq_iff {reference : String} :
    (∃ rest, Text.segmentsFromEnd reference = variantName :: enumName :: rest) ↔
      EndsIn enumName variantName reference := by
  constructor
  · rintro ⟨rest, h⟩
    rw [endsIn_iff_toList]
    obtain ⟨last, _, hsplit, rfl, hmap⟩ := List.map_eq_cons_iff.mp h
    obtain ⟨before, others, rfl, rfl, -⟩ := List.map_eq_cons_iff.mp hmap
    rcases Text.splitBackwards_eq_cons hsplit with ⟨hnil, -⟩ | ⟨outer, houter, htext⟩
    · cases hnil
    · rcases Text.splitBackwards_eq_cons houter with ⟨-, heq⟩ | ⟨further, -, heq⟩
      · left
        simpa [← heq] using htext
      · right
        rw [List.append_nil] at heq
        exact ⟨further.reverse, by simpa [heq] using htext⟩
  · rintro (rfl | ⟨outer, rfl⟩)
    · refine ⟨[], ?_⟩
      rw [Text.segmentsFromEnd_append hvariant, Text.segmentsFromEnd_of_no_colon henum]
    · refine ⟨Text.segmentsFromEnd outer, ?_⟩
      rw [Text.segmentsFromEnd_append hvariant, Text.segmentsFromEnd_append henum]

/-- **A builder produces a variant** exactly if its reference ends in it. -/
theorem Builder.produces_iff {builder : Builder} :
    builder.produces enumName variantName = true ↔
      ∃ reference, builder.reference = some reference ∧
        EndsIn enumName variantName reference := by
  unfold Builder.produces
  cases builder.reference with
  | none => simp
  | some reference =>
    simp only [Option.map_some, Option.some.injEq, exists_eq_left',
      ← segmentsFromEnd_eq_iff henum hvariant]
    rcases Text.segmentsFromEnd reference with _ | ⟨last, _ | ⟨before, rest⟩⟩ <;> simp

end

/-- A name is the **last segment** of a reference: what stands behind its last double colon, or all
of it if it has none. -/
def LastSegment (name reference : String) : Prop :=
  (reference = name ∧ ¬ Text.hasInfix "::" name) ∨
    ∃ outer, reference = outer ++ "::" ++ name ∧ ¬ Text.hasInfix "::" (":" ++ name)

theorem head?_segmentsFromEnd_iff {name reference : String} :
    (Text.segmentsFromEnd reference).head? = some name ↔ LastSegment name reference := by
  unfold Text.segmentsFromEnd LastSegment
  simp only [Text.hasInfix_double_colon_iff]
  constructor
  · intro h
    rcases Text.exists_first_double_colon reference.toList.reverse with
      hnone | ⟨last, outer, hreverse, hlast⟩
    · rw [Text.splitBackwards_of_not_infix _ hnone, List.reverse_reverse, List.append_nil] at h
      obtain rfl : reference = name := by simpa using h
      exact Or.inl ⟨rfl, hnone⟩
    · have hreference := congrArg List.reverse hreverse
      rw [hreverse, Text.splitBackwards_append _ _ hlast, List.append_nil] at h
      obtain rfl : String.ofList last.reverse = name := by simpa using h
      refine Or.inr ⟨String.ofList outer.reverse, String.toList_injective ?_, ?_⟩
      · simpa using hreference
      · simpa using hlast
  · rintro (⟨rfl, hnone⟩ | ⟨outer, rfl, hnone⟩)
    · rw [Text.splitBackwards_of_not_infix _ hnone]
      simp
    · have hreverse : (outer ++ "::" ++ name).toList.reverse =
          name.toList.reverse ++ ':' :: ':' :: outer.toList.reverse := by simp
      rw [hreverse, Text.splitBackwards_append _ _ (by simpa using hnone)]
      simp

theorem Builder.producesLeaf_iff {builder : Builder} {name : String} :
    builder.producesLeaf name = true ↔
      ∃ reference, builder.reference = some reference ∧ LastSegment name reference := by
  unfold Builder.producesLeaf
  cases builder.reference with
  | none => simp
  | some reference =>
    simp only [Option.map_some, Option.some.injEq, exists_eq_left', ← head?_segmentsFromEnd_iff]
    rcases Text.segmentsFromEnd reference with _ | ⟨last, rest⟩ <;> simp

/-! ### The path of a value -/

theorem endsIn_joined {path : Path} {outer : List String} {enumName variantName : String}
    (h : path.idents = outer ++ [enumName, variantName]) :
    ∃ reference, path.joined? = some reference ∧ EndsIn enumName variantName reference := by
  refine ⟨"::".intercalate path.idents, ?_, ?_⟩
  · rw [Path.joined?, if_neg (by simp [h])]
  · rw [h]
    clear h
    induction outer with
    | nil => exact Or.inl (by simp [String.intercalate_cons_cons])
    | cons name outer ih =>
      obtain ⟨next, rest, hrest⟩ := List.exists_cons_of_ne_nil
        (show outer ++ [enumName, variantName] ≠ [] by simp)
      rw [List.cons_append, hrest, String.intercalate_cons_cons, ← hrest]
      rcases ih with heq | ⟨front, heq⟩
      · exact Or.inr ⟨name, by rw [heq]; simp [String.append_assoc]⟩
      · exact Or.inr ⟨name ++ "::" ++ front, by rw [heq]; simp [String.append_assoc]⟩

theorem EndsIn.isQualified {enumName variantName reference : String}
    (h : EndsIn enumName variantName reference) : Reference.isQualified reference = true := by
  unfold Reference.isQualified Text.hasInfix
  rw [Text.hasInfixChars_iff]
  rcases endsIn_iff_toList.mp h with heq | ⟨outer, heq⟩
  · exact ⟨enumName.toList, variantName.toList, by simp [heq]⟩
  · exact ⟨outer, enumName.toList ++ ':' :: ':' :: variantName.toList, by simp [heq]⟩

/-! ### Matching by names -/

theorem segments_of_joined {path : Path} (h : ∀ name ∈ path.idents, ':' ∉ name.toList) :
    path.joined?.map Text.segmentsFromEnd =
      if path.idents = [] then none else some path.idents.reverse := by
  unfold Path.joined?
  split_ifs with hempty
  · rfl
  · rw [Option.map_some, Text.segmentsFromEnd_intercalate hempty h]

/-- **References are matched name by name.** Let a builder's reference be a path whose names have no
colon in them. Then the builder produces a variant of an enum exactly if the last two names of the
path are the enum and the variant, and it produces a single name exactly if that is the last name of
the path. -/
theorem matching_by_names {path : Path} (hpath : ∀ name ∈ path.idents, ':' ∉ name.toList)
    {builder : Builder} (hreference : builder.reference = path.joined?)
    (enumName variantName : String) :
    (builder.produces enumName variantName = true ↔ [enumName, variantName] <:+ path.idents) ∧
      (builder.producesLeaf variantName = true ↔ path.idents.getLast? = some variantName) := by
  have hsegments := segments_of_joined hpath
  have hsuffix : [enumName, variantName] <:+ path.idents ↔
      [variantName, enumName] <+: path.idents.reverse := by
    rw [← List.reverse_suffix, List.reverse_reverse]
    rfl
  rw [hsuffix, ← List.head?_reverse]
  unfold Builder.produces Builder.producesLeaf
  rw [hreference, hsegments]
  rcases hnames : path.idents.reverse with _ | ⟨last, rest⟩
  · rw [List.reverse_eq_nil_iff.mp hnames]
    simp
  · have hne : path.idents ≠ [] := by
      intro hempty
      simp [hempty] at hnames
    rw [if_neg hne]
    rcases rest with _ | ⟨before, rest⟩
    · simp
    · simp only [Bool.and_eq_true, decide_eq_true_eq, List.cons_prefix_cons, List.nil_prefix,
        and_true, List.head?_cons, Option.some.injEq]
      exact and_congr eq_comm eq_comm

/-- `Op::Pay` is found behind a module and a segment that was not read, and neither of the two names
matches in part or in the other place. -/
theorem matching_of_written_pay :
    let path : Path := ⟨[⟨⟨"shop"⟩, .none⟩, ⟨⟨"Op"⟩, .none⟩, ⟨⟨""⟩, .none⟩, ⟨⟨"Pay"⟩, .none⟩]⟩
    let builder : Builder := ⟨"pay", some "shop::Op::Pay", none, []⟩
    (∀ name ∈ path.idents, ':' ∉ name.toList) ∧ builder.reference = path.joined? ∧
      builder.produces "Op" "Pay" = true ∧ builder.producesLeaf "Pay" = true ∧
      ¬ builder.produces "p" "Pay" = true ∧ ¬ builder.producesLeaf "Op" = true := by
  intro path builder
  have hpath : ∀ name ∈ path.idents, ':' ∉ name.toList := by decide
  have hreference : builder.reference = path.joined? := by decide
  have hmatch := matching_by_names hpath hreference
  refine ⟨hpath, hreference, (hmatch "Op" "Pay").1.mpr ?_, (hmatch "Op" "Pay").2.mpr ?_,
    (hmatch "p" "Pay").1.not.mpr ?_, (hmatch "shop" "Op").2.not.mpr ?_⟩
  all_goals decide

end AbiRecovery
