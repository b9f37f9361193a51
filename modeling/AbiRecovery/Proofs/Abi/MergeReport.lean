import AbiRecovery.Proofs.Abi.Merge
import AbiRecovery.Proofs.Abi.RoundTrip

/-!
# The report of a merge

A merge is reported as one that changed nothing if the fingerprint is the same before and after it.
A fingerprint is the digest of the compact text of an instruction list, written with hexadecimal
digits, and each step but the digest is injective: a list is read back from its text, a text has its
own bytes (`utf8_injective`), and bytes have their own digits (`hexOf_injective`). So two lists
whose encodings do not collide have the same fingerprint only if they are the same list
(`fingerprintOf_eq_iff`), and the report tells whether the list was changed, provided that the
stored fingerprint belongs to the stored list (`Current`).
-/

namespace AbiRecovery

/-! ### Hexadecimal digits -/

theorem byte_eq_of_digits {first second : UInt8}
    (hhigh : Nat.digitChar (first.toNat / 16) = Nat.digitChar (second.toNat / 16))
    (hlow : Nat.digitChar (first.toNat % 16) = Nat.digitChar (second.toNat % 16)) :
    first = second := by
  have hfirst := first.toNat_lt
  have hsecond := second.toNat_lt
  have hdigit : ∀ m n : ℕ, m < 16 → n < 16 → Nat.digitChar m = Nat.digitChar n → m = n := by
    intro m n hm hn h
    have hm' := Json.digit?_hexDigit m
    have hn' := Json.digit?_hexDigit n
    rw [Json.hexDigit, Nat.mod_eq_of_lt hm] at hm'
    rw [Json.hexDigit, Nat.mod_eq_of_lt hn, ← h, hm'] at hn'
    exact Option.some.inj hn'
  have hquotient := hdigit _ _ (by omega) (by omega) hhigh
  have hremainder := hdigit _ _ (by omega) (by omega) hlow
  exact UInt8.toNat_inj.mp (by omega)

theorem hexOf_injective {first second : List UInt8} (h : hexOf first = hexOf second) :
    first = second := by
  have hdigits := String.ofList_injective h
  clear h
  induction first generalizing second with
  | nil =>
    cases second with
    | nil => rfl
    | cons byte second => simp at hdigits
  | cons byte first ih =>
    cases second with
    | nil => simp at hdigits
    | cons other second =>
      simp only [List.flatMap_cons, List.cons_append, List.nil_append, List.cons.injEq] at hdigits
      obtain ⟨hhigh, hlow, hrest⟩ := hdigits
      rw [byte_eq_of_digits hhigh hlow, ih hrest]

/-! ### The bytes of a text -/

theorem loop_eq_append_drop (bytes : ByteArray) (position : ℕ) (taken : List UInt8) :
    ByteArray.toList.loop bytes position taken =
      taken.reverse ++ bytes.data.toList.drop position := by
  induction position, taken using ByteArray.toList.loop.induct bytes with
  | case1 position taken hlt ih =>
    have hposition : position < bytes.data.toList.length := by simpa using hlt
    have hbyte : bytes.get! position = bytes.data.toList[position] := by
      rw [Array.getElem_toList]
      exact getElem!_pos bytes.data position (by simpa using hlt)
    rw [ByteArray.toList.loop, if_pos hlt, ih, List.drop_eq_getElem_cons hposition, hbyte]
    simp
  | case2 position taken hge =>
    have hposition : bytes.data.toList.length ≤ position := by simpa using hge
    rw [ByteArray.toList.loop, if_neg hge, List.drop_of_length_le hposition, List.append_nil]

theorem utf8_injective {first second : String} (h : first.toUTF8.toList = second.toUTF8.toList) :
    first = second := by
  simp only [ByteArray.toList, loop_eq_append_drop, List.reverse_nil, List.nil_append,
    List.drop_zero] at h
  exact String.toByteArray_inj.mp (ByteArray.ext (Array.toList_inj.mp h))

/-! ### Fingerprints -/

/-- Two messages **do not collide**: their digests differ, unless they are the same. -/
def NoCollision (first second : List UInt8) : Prop :=
  Sha256.digest first = Sha256.digest second → first = second

/-- The bytes that the fingerprint of an instruction list is taken of. -/
def Instruction.encoding (instructions : List Instruction) : List UInt8 :=
  (listToJson instructions).compact.toUTF8.toList

theorem Instruction.encoding_injective {first second : List Instruction}
    (h : encoding first = encoding second) : first = second := by
  have htext := utf8_injective h
  have hread := listOfText_compact first
  rw [htext, listOfText_compact second] at hread
  exact (Except.ok.inj hread).symm

namespace Document

/-- **Fingerprints tell lists apart** if the encodings do not collide. -/
theorem fingerprintOf_eq_iff {first second : List Instruction}
    (h : NoCollision (Instruction.encoding first) (Instruction.encoding second)) :
    fingerprintOf first = fingerprintOf second ↔ first = second := by
  constructor
  · intro hsame
    exact Instruction.encoding_injective (h (hexOf_injective hsame))
  · rintro rfl
    rfl

/-- The fingerprint of a document is that of its instructions. -/
def Current (document : Document) : Prop :=
  document.metadata.fingerprint = fingerprintOf document.instructions

theorem current_refresh (document : Document) : document.refresh.Current := rfl

theorem current_empty (name : String) : (empty name).Current := current_refresh _

theorem current_ofAnalysis (name : String) (analysis : Analysis) :
    (ofAnalysis name analysis).Current := current_refresh _

theorem current_merge (stored incoming : Document) : (stored.merge incoming).Current :=
  current_refresh _

/-! ### Reports -/

theorem mergeEvent_of_current {stored : Document} (h : stored.Current) (incoming : Document) :
    stored.mergeEvent incoming =
      if fingerprintOf stored.instructions = fingerprintOf (stored.merge incoming).instructions then
        .unchanged stored.name
      else .updated stored.name (stored.merge incoming).instructions.length := by
  simp only [mergeEvent, (fields_merge stored incoming).1]
  rw [h, current_merge stored incoming]

theorem line_about (name rest : String) :
    "[" ++ Level.info.word ++ "] - " ++ ("ABI for " ++ name ++ rest) =
      "[INFO] - ABI for " ++ name ++ rest := by
  have hfront : "[" ++ Level.info.word ++ "] - " ++ "ABI for " = "[INFO] - ABI for " := by decide
  rw [← String.append_assoc, ← String.append_assoc, hfront]

theorem line_unchanged (name : String) :
    (Event.unchanged name).line = "[INFO] - ABI for " ++ name ++ " is unchanged" :=
  line_about name " is unchanged"

theorem line_updated (name : String) (count : ℕ) :
    (Event.updated name count).line =
      "[INFO] - ABI for " ++ name ++ " updated (" ++ toString count ++ " instructions)" := by
  have hline := line_about name (" updated (" ++ toString count ++ " instructions)")
  simp only [← String.append_assoc] at hline ⊢
  exact hline

theorem line_updated_ne_line_unchanged (name : String) (count : ℕ) :
    (Event.updated name count).line ≠ (Event.unchanged name).line := by
  rw [line_unchanged, line_updated]
  generalize toString count = digits
  intro h
  have hchars := congrArg String.toList h
  simp at hchars

/-- **The report of a merge is true.** The fingerprint is that of the instructions in a document
that is empty, that comes from an analysis, that was merged or whose fingerprint was refreshed. If
the stored document is such a document, and the encodings of the instruction lists before and after
the merge do not collide, then the merge is reported to have changed nothing exactly if the list is
the same as before, and otherwise as an update to the number of instructions that there are now. -/
theorem merge_report_iff :
    ((∀ name, (empty name).Current) ∧ (∀ name analysis, (ofAnalysis name analysis).Current) ∧
      (∀ stored incoming : Document, (stored.merge incoming).Current) ∧
      ∀ document : Document, document.refresh.Current) ∧
    ∀ stored incoming : Document, stored.Current →
      NoCollision (Instruction.encoding stored.instructions)
          (Instruction.encoding (stored.merge incoming).instructions) →
        let merged := stored.merge incoming
        let report := stored.mergeEvent incoming
        (report = .unchanged stored.name ↔ merged.instructions = stored.instructions) ∧
        (report.line = "[INFO] - ABI for " ++ stored.name ++ " is unchanged" ↔
          merged.instructions = stored.instructions) ∧
        (merged.instructions ≠ stored.instructions →
          report = .updated stored.name merged.instructions.length ∧
            report.line = "[INFO] - ABI for " ++ stored.name ++ " updated (" ++
              toString merged.instructions.length ++ " instructions)") := by
  refine ⟨⟨current_empty, current_ofAnalysis, current_merge, current_refresh⟩, ?_⟩
  intro stored incoming hcurrent hcollision merged report
  have hreport : report =
      if stored.instructions = merged.instructions then .unchanged stored.name
      else .updated stored.name merged.instructions.length := by
    have hlists := fingerprintOf_eq_iff hcollision
    exact (mergeEvent_of_current hcurrent incoming).trans (if_congr hlists rfl rfl)
  rw [← line_unchanged, ← line_updated]
  by_cases hsame : merged.instructions = stored.instructions
  · rw [if_pos hsame.symm] at hreport
    rw [hreport]
    exact ⟨iff_of_true rfl hsame, iff_of_true rfl hsame, fun hchanged => absurd hsame hchanged⟩
  · rw [if_neg (Ne.symm hsame)] at hreport
    rw [hreport]
    refine ⟨iff_of_false ?_ hsame, iff_of_false ?_ hsame, fun _ => ⟨rfl, rfl⟩⟩
    · rintro ⟨⟩
    · exact line_updated_ne_line_unchanged stored.name merged.instructions.length

/-- A document with one instruction, whose accounts are not known, or known to be none. -/
def initDocument (accounts : Option (List AccountRole)) : Document :=
  refresh { empty "token" with instructions := [⟨0, "Init", [], accounts⟩] }

/-- An empty account list in place of an absent one is reported, and an absent one that leaves the
empty list as it is goes without notice. -/
theorem merge_report_of_initDocument :
    let absent := initDocument none
    let known := initDocument (some [])
    (absent.Current ∧ NoCollision (Instruction.encoding absent.instructions)
      (Instruction.encoding (absent.merge known).instructions) ∧
      (absent.mergeEvent known).line = "[INFO] - ABI for token updated (1 instructions)") ∧
    known.Current ∧ NoCollision (Instruction.encoding known.instructions)
      (Instruction.encoding (known.merge absent).instructions) ∧
      (known.mergeEvent absent).line = "[INFO] - ABI for token is unchanged" := by
  intro absent known
  have hchanged : (absent.merge known).instructions = [⟨0, "Init", [], some []⟩] := by decide
  have hkept : (known.merge absent).instructions = known.instructions := by decide
  have habsent : NoCollision (Instruction.encoding absent.instructions)
      (Instruction.encoding (absent.merge known).instructions) := by
    rw [hchanged]
    intro hdigest
    exact absurd hdigest (by decide +kernel)
  have hknown : NoCollision (Instruction.encoding known.instructions)
      (Instruction.encoding (known.merge absent).instructions) := by
    rw [hkept]
    exact fun _ => rfl
  have hupdated := (merge_report_iff.2 absent known rfl habsent).2.2 (by rw [hchanged]; decide)
  have hsilent := (merge_report_iff.2 known absent rfl hknown).2.1.mpr hkept
  refine ⟨⟨rfl, habsent, ?_⟩, rfl, hknown, hsilent⟩
  rw [hupdated.2, hchanged]
  decide

end Document

end AbiRecovery
