import AbiRecovery.Proofs.Store.Walking

/-!
# The directory around a path

The path of the directory around a path is what stands in front of one of its slashes
(`parent?_eq_some`). So the way to an absolute path passes that directory, and wherever the path can
be followed the directory is there (`lookup_parent`). A file that could be written can therefore be
written again without a directory being made.
-/

namespace AbiRecovery

namespace FilePath

theorem intercalate_parts (path : String) : "/".intercalate (parts path) = path := by
  have hchars : ∀ chars : List Char,
      "/".intercalate ((splitChars chars).map String.ofList) = String.ofList chars := by
    intro chars
    induction chars with
    | nil => rfl
    | cons c chars ih =>
      obtain ⟨part, rest, hsplit⟩ := List.exists_cons_of_ne_nil (splitChars_ne_nil chars)
      rw [hsplit] at ih
      by_cases hc : c = '/'
      · subst hc
        rw [splitChars, hsplit, List.map_cons, String.intercalate_cons_of_ne_nil (by simp), ih]
        exact String.toList_injective (by simp)
      · have hcons : splitChars (c :: chars) = (c :: part) :: rest := by
          rw [splitChars, hsplit]
          exact hc
        have happend : String.ofList (c :: part) = String.ofList [c] ++ String.ofList part :=
          String.toList_injective (by simp)
        rw [hcons, List.map_cons, happend, String.intercalate_cons_append, ← List.map_cons, ih]
        exact String.toList_injective (by simp)
  rw [parts, hchars, String.ofList_toList]

theorem ancestorsOf_eq_cons {reversed : List String} {first : String} {rest : List String}
    (h : ancestorsOf reversed = first :: rest) :
    ∃ back part outer, reversed = back ++ part :: outer ∧ part ≠ "" ∧
      first = "/".intercalate (part :: outer).reverse ∧ ancestorsOf outer = rest := by
  induction reversed with
  | nil => cases h
  | cons part outer ih =>
    rw [ancestorsOf] at h
    split_ifs at h with hblank
    · obtain ⟨back, part', outer', rfl, hpart⟩ := ih h
      exact ⟨part :: back, part', outer', rfl, hpart⟩
    · rw [List.cons.injEq] at h
      refine ⟨[], part, outer, rfl, ?_, h.1.symm, h.2⟩
      rintro rfl
      exact hblank rfl

/-- **The path of the directory around a path** stands in front of a slash in it. -/
theorem parent?_eq_some {path parent : String} (h : parent? path = some parent) :
    parent = "/" ∨ parent ≠ "" ∧ ∃ rest, path = parent ++ "/" ++ rest := by
  unfold parent? at h
  split at h
  · cases h
  · cases h
    exact Or.inl rfl
  · next first outside further hancestors =>
    cases h
    right
    obtain ⟨back, part, outer, hparts, -, -, houter⟩ := ancestorsOf_eq_cons hancestors
    obtain ⟨back', part', outer', rfl, hpart, rfl, -⟩ := ancestorsOf_eq_cons houter
    refine ⟨?_, "/".intercalate ((back ++ part :: back').reverse), ?_⟩
    · intro hempty
      have hchars := congrArg String.toList hempty
      rw [List.reverse_cons] at hchars
      by_cases hfront : outer' = []
      · rw [hfront, List.reverse_nil, List.nil_append, String.intercalate_singleton] at hchars
        exact hpart (String.toList_injective hchars)
      · rw [String.intercalate_append_of_ne_nil (by simpa using hfront) (by simp)] at hchars
        simp at hchars
    · have hsplit : parts path = (part' :: outer').reverse ++ (back ++ part :: back').reverse := by
        rw [← List.reverse_append, ← List.reverse_reverse (parts path), hparts]
        simp
      rw [← String.intercalate_append_of_ne_nil (by simp) (by simp), ← hsplit, intercalate_parts]

end FilePath

namespace Disk

theorem follow_front {disk : Disk} {first second : List String} {trail last : Trail}
    (h : disk.follow trail (first ++ second) = .ok last) :
    disk.follow trail first = .ok (walk trail first) := by
  induction first generalizing trail with
  | nil => rfl
  | cons part parts ih =>
    obtain ⟨hdir, hpart, hrest⟩ := follow_cons_eq_ok_iff.mp h
    exact follow_cons_eq_ok_iff.mpr ⟨hdir, hpart, ih hrest⟩

theorem get?_of_follow {disk : Disk} {parts : List String} {trail last : Trail}
    (h : disk.follow trail parts = .ok last) (hne : parts ≠ []) :
    disk.get? trail.location = some .directory := by
  obtain ⟨part, rest, rfl⟩ := List.exists_cons_of_ne_nil hne
  exact (follow_cons_eq_ok_iff.mp h).1

/-- **The directory around a path** is there if the path can be followed. -/
theorem lookup_parent {disk : Disk} {path parent : String} {trail : Trail}
    (habsolute : FilePath.isAbsolute path = true) (h : disk.Reaches path trail)
    (hparent : FilePath.parent? path = some parent) : disk.lookup parent = .ok .directory := by
  obtain ⟨hstart, hfollow⟩ := h
  rw [origin, if_pos habsolute] at hfollow
  have hne : ∀ text, FilePath.parts text ≠ [] := by
    intro text
    simpa [FilePath.parts] using FilePath.splitChars_ne_nil text.toList
  rw [lookup_eq_ok_iff]
  rcases FilePath.parent?_eq_some hparent with rfl | ⟨hnonempty, rest, rfl⟩
  · have hroot := get?_of_follow hfollow (hne path)
    have hslash : FilePath.parts "/" = ["", ""] := by decide
    have horigin : disk.origin "/" = [] := if_pos (by decide)
    refine ⟨[], ⟨exists_start_eq_ok_iff.mpr (by decide), ?_⟩, hroot⟩
    rw [hslash, horigin, follow_cons_eq_ok_iff]
    exact ⟨hroot, Or.inl rfl, follow_cons_eq_ok_iff.mpr ⟨hroot, Or.inl rfl, rfl⟩⟩
  · have habsolute' : FilePath.isAbsolute parent = true := by
      have hhead : parent.toList ≠ [] := by simpa using hnonempty
      obtain ⟨c, chars, hchars⟩ := List.exists_cons_of_ne_nil hhead
      simpa [FilePath.isAbsolute, hchars] using habsolute
    rw [FilePath.parts_append] at hfollow
    refine ⟨walk [] (FilePath.parts parent), ⟨exists_start_eq_ok_iff.mpr ?_, ?_⟩, ?_⟩
    · obtain ⟨hzero, -, hlong⟩ := exists_start_eq_ok_iff.mp hstart
      refine ⟨fun hmem => hzero (by simp [hmem]), hnonempty, ?_⟩
      rw [String.utf8ByteSize_append, String.utf8ByteSize_append] at hlong
      omega
    · rw [origin, if_pos habsolute']
      exact follow_front hfollow
    · exact get?_of_follow (follow_append hfollow) (hne rest)

end Disk

end AbiRecovery
