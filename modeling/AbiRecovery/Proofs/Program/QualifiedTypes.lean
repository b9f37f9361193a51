import AbiRecovery.Proofs.Program.BuilderRecovery
import AbiRecovery.Proofs.Program.EnumRecovery

/-!
# Types behind modules

A type can be written with the modules in front of it that lead to it. Flattening keeps their names
(`segmentTokens_qualified`), and the canonical name of a flattened type is that of its outermost
token that is no wrapper. No module is a wrapper, so the first module with a name that can be read
takes the place of the type (`canonical?_append`), and neither wrappers nor aliases behind it are
seen. The elements of an array are named by the last segment of their path, and there modules do not
matter (`elementName?_qualified`).
-/

namespace AbiRecovery

open AbiRecovery.Tree

/-! ### Modules -/

/-- A name that neither a wrapper nor an alias has. -/
def IsModuleName (name : String) : Prop :=
  name ∉ wrapperTypes ∧ name ∉ typeAliases.map Prod.fst

instance (name : String) : Decidable (IsModuleName name) :=
  inferInstanceAs (Decidable (_ ∧ _))

/-- A segment **names a module**: it has no generic arguments, and it is not named like a wrapper or
an alias. -/
structure Tree.PathSegment.IsModule (segment : PathSegment) : Prop where
  plain : ∀ args, segment.arguments ≠ .angleBracketed args
  name : IsModuleName segment.ident.text

theorem isModule_plain {names : List String} (h : ∀ name ∈ names, IsModuleName name) :
    ∀ segment ∈ (plainPath names).segments, segment.IsModule := by
  intro segment hsegment
  obtain ⟨name, hname, rfl⟩ := List.mem_map.mp hsegment
  exact ⟨fun _ => nofun, h name hname⟩

namespace Tree.Path

/-- A path with modules in front of it. -/
def qualified (modules : List PathSegment) (path : Path) : Path :=
  ⟨modules ++ path.segments⟩

theorem idents_cons (segment : PathSegment) (segments : List PathSegment) :
    (Tree.Path.mk (segment :: segments)).idents =
      segment.ident.name?.toList ++ (Tree.Path.mk segments).idents := by
  cases hname : segment.ident.name? <;> simp [idents, hname]

theorem idents_qualified (modules : List PathSegment) (path : Path) :
    (path.qualified modules).idents = (Tree.Path.mk modules).idents ++ path.idents :=
  List.filterMap_append

theorem leaf?_qualified (modules : List PathSegment) {path : Path} (h : path.leaf? ≠ none) :
    (path.qualified modules).leaf? = path.leaf? := by
  obtain ⟨name, hname⟩ := Option.ne_none_iff_exists'.mp h
  have hlast : path.idents.getLast? = some name := hname
  rw [leaf?, idents_qualified, List.getLast?_append, hlast, Option.some_or, hname]

end Tree.Path

theorem IsModuleName.resolveAlias_eq {name : String} (h : IsModuleName name) :
    resolveAlias name = name := by
  have hnone : typeAliases.lookup name = none := by
    rw [List.lookup_eq_none_iff]
    intro entry hentry
    have hne : name ≠ entry.1 := fun heq => h.2 (heq ▸ List.mem_map_of_mem hentry)
    simpa using hne
  rw [resolveAlias, hnone, Option.getD_none]

namespace TypePath

/-! ### Flattening -/

theorem segmentTokens_qualified {modules : List PathSegment}
    (h : ∀ segment ∈ modules, segment.IsModule) (segments : List PathSegment) :
    segmentTokens (modules ++ segments) =
      (Tree.Path.mk modules).idents ++ segmentTokens segments := by
  induction modules with
  | nil => rfl
  | cons segment modules ih =>
    have hrest := ih fun other hother => h other (List.mem_cons_of_mem _ hother)
    have hplain := (h segment List.mem_cons_self).plain
    rw [List.cons_append, segmentTokens, Path.idents_cons, List.append_assoc, ← hrest]
    congr 1
    split
    · next args hargs => exact absurd hargs (hplain args)
    · rfl

/-- **The first name** of modules is taken for the name of a type. -/
theorem canonical?_append {names : List String} (h : ∀ name ∈ names, IsModuleName name)
    (tokens : List String) :
    canonical? ⟨names ++ tokens⟩ = names.head?.or (canonical? ⟨tokens⟩) := by
  cases names with
  | nil => rfl
  | cons name names =>
    have hname := h name List.mem_cons_self
    have hfind : ((name :: (names ++ tokens)).find? fun token => !wrapperTypes.contains token) =
        some name := List.find?_cons_of_pos (by simpa using hname.1)
    rw [canonical?, List.cons_append, hfind, Option.some_or, Option.map_some,
      hname.resolveAlias_eq]
    rfl

theorem isModuleName_of_mem_idents {modules : List PathSegment}
    (h : ∀ segment ∈ modules, segment.IsModule) {name : String}
    (hname : name ∈ (Tree.Path.mk modules).idents) : IsModuleName name := by
  obtain ⟨segment, hsegment, hread⟩ := List.mem_filterMap.mp hname
  rw [← (Ident.text_of_name? hread).1]
  exact (h segment hsegment).name

theorem elementName?_qualified (modules : List PathSegment) {path : Path} (h : path.leaf? ≠ none) :
    elementName? (.path (path.qualified modules)) = elementName? (.path path) :=
  Path.leaf?_qualified modules h

/-! ### Types -/

/-- **Modules in front of a type** take its place. The type has the canonical name that is the first
name of the modules, and it has its own one only if no name of a module can be read, or if the first
one is the same. As the type of the elements of an array it is found behind modules as well. -/
theorem canonical_of_qualified {modules : List PathSegment}
    (h : ∀ segment ∈ modules, segment.IsModule) (path : Path) :
    let names := (Tree.Path.mk modules).idents
    let own := (ofType (.path path)).canonical?
    let found := (ofType (.path (path.qualified modules))).canonical?
    found = names.head?.or own ∧ (found = own ↔ names = [] ∨ names.head? = own) ∧
      (path.leaf? ≠ none → ∀ len, ofType (.array (.path (path.qualified modules)) len) =
        ofType (.array (.path path) len)) := by
  intro names own found
  have htokens : ofType (.path (path.qualified modules)) =
      ⟨names ++ (ofType (.path path)).tokens⟩ :=
    congrArg TypePath.mk (segmentTokens_qualified h path.segments)
  have hfound : found = names.head?.or own := by
    have hnames := canonical?_append (fun name hname => isModuleName_of_mem_idents h hname)
      (ofType (.path path)).tokens
    exact (congrArg canonical? htokens).trans hnames
  refine ⟨hfound, ?_, fun hleaf len => ?_⟩
  · rw [hfound]
    cases names with
    | nil => simp
    | cons name names => simp
  · simp only [ofType, arrayToken?, elementName?_qualified modules hleaf]

/-- The alias `std::num::NonZeroU64` is not seen, but as the type of array elements it is. -/
theorem canonical_of_nonZero :
    (∀ segment ∈ (plainPath ["std", "num"]).segments, segment.IsModule) ∧
      (ofType (.path (plainPath ["std", "num", "NonZeroU64"]))).canonical? = some "std" ∧
      (ofType (.array (.path (plainPath ["std", "num", "NonZeroU64"])) (.lit (.int "4")))).tokens =
        ["NonZeroU64;4"] := by
  have hmodules : ∀ segment ∈ (plainPath ["std", "num"]).segments, segment.IsModule :=
    isModule_plain (by decide)
  obtain ⟨hfound, -, harray⟩ := canonical_of_qualified hmodules (plainPath ["NonZeroU64"])
  exact ⟨hmodules, hfound, congrArg tokens (harray (by decide) (.lit (.int "4")))⟩

end TypePath

/-- A file whose instruction carries a number, a key and bytes, each with modules in front of its
type. -/
def paymentFile (number key bytes : List String) : File :=
  ⟨[.enum ⟨.everywhere, ⟨"Op"⟩, [.variant ⟨"Pay"⟩
      (.unnamed [⟨.inherited, none, .path (plainPath ["Payment"])⟩])]⟩,
    .struct ⟨.everywhere, ⟨"Payment"⟩, .named
      [⟨.everywhere, some ⟨"amount"⟩, .path (plainPath (number ++ ["NonZeroU64"]))⟩,
        ⟨.everywhere, some ⟨"owner"⟩, .path (plainPath (key ++ ["Pubkey"]))⟩,
        ⟨.everywhere, some ⟨"memo"⟩, .path ⟨(plainPath bytes).segments ++
          [⟨⟨"Vec"⟩, .angleBracketed [.path (plainPath ["u8"])]⟩]⟩⟩]⟩]⟩

/-- With modules in front of them the inputs have the types `std` and `solana_program`. -/
theorem modules_taken_for_types :
    (Analysis.ofFile (paymentFile [] [] [])).instructions =
        [⟨0, "Pay", [⟨"amount", some "u64"⟩, ⟨"owner", some "Pubkey"⟩, ⟨"memo", some "u8"⟩],
          none⟩] ∧
      (∀ segment ∈ (plainPath ["std", "num", "solana_program", "pubkey", "vec"]).segments,
        segment.IsModule) ∧
      (Analysis.ofFile (paymentFile ["std", "num"] ["solana_program", "pubkey"]
          ["std", "vec"])).instructions =
        [⟨0, "Pay", [⟨"amount", some "std"⟩, ⟨"owner", some "solana_program"⟩,
          ⟨"memo", some "std"⟩], none⟩] :=
  ⟨by decide, isModule_plain (by decide), by decide⟩

end AbiRecovery
