import AbiRecovery.Abi.Document
import AbiRecovery.Proofs.Json.Reading

/-!
# Stored documents are read back

Each record prints a value that its shape admits (`admits_toJson`), and the record is recovered from
that value (`ofJson_toJson`), optional fields included: an absent field is not printed, and a field
that is not there reads as absent, whereas an empty list is printed and read as such.

So a document is read back from its text (`Document.ofText_render`), and an instruction list from
the compact text that its fingerprint is taken of (`Instruction.listOfText_compact`).
-/

namespace AbiRecovery

open Json Json.Shape

theorem fieldsAdmit_optionalMember {key : String} {presence : Presence} {shape : Shape}
    {value : Option Json} {fields : List (String × Presence × Shape)}
    {members : List (String × Json)} (hp : presence ≠ .required)
    (h : ∀ present ∈ value, shape.Admits present) (hs : FieldsAdmit fields members) :
    FieldsAdmit ((key, presence, .optional shape) :: fields)
      (optionalMember key value ++ members) := by
  rcases value with _ | present
  · exact .omitted hp hs
  · exact .given (.present (h present rfl)) hs

theorem admits_optionalText (text : Option String) :
    ∀ present ∈ text.map Json.str, Shape.text.Admits present := by
  intro present h
  obtain ⟨content, -, rfl⟩ := Option.map_eq_some_iff.mp h
  exact .text content

theorem admits_map {α : Type} {shape : Shape} {toJson : α → Json}
    (h : ∀ item, shape.Admits (toJson item)) (items : List α) :
    (Shape.list shape).Admits (.arr (items.map toJson)) := by
  refine .list fun value hv => ?_
  obtain ⟨item, -, rfl⟩ := List.mem_map.mp hv
  exact h item

theorem map_ofJson_toJson {α : Type} {toJson : α → Json} {ofJson : Json → α}
    (h : ∀ item, ofJson (toJson item) = item) (items : List α) :
    (items.map toJson).map ofJson = items := by
  rw [List.map_map]
  exact List.map_id'' h items

theorem map_toText_str (texts : List String) : (texts.map Json.str).map Json.toText = texts :=
  map_ofJson_toJson (fun _ => rfl) texts

/-! ### The records of a document -/

theorem AccountRole.admits_toJson (role : AccountRole) : shape.Admits role.toJson :=
  .record (fieldsAdmit_optionalMember (by decide) (admits_optionalText role.name)
    (.given (.flag _) (.given (.flag _) .nil)))

theorem AccountRole.ofJson_toJson (role : AccountRole) : ofJson role.toJson = role := by
  obtain ⟨_ | name, isWritable, isSigner⟩ := role <;> rfl

theorem InputField.admits_toJson (field : InputField) : shape.Admits field.toJson := by
  have h : FieldsAdmit [("type", Presence.defaulted, .optional .text)]
      (optionalMember "type" (field.type.map .str) ++ []) :=
    fieldsAdmit_optionalMember (by decide) (admits_optionalText field.type) .nil
  rw [List.append_nil] at h
  exact .record (.given (.text _) h)

theorem InputField.ofJson_toJson (field : InputField) : ofJson field.toJson = field := by
  obtain ⟨name, _ | type⟩ := field <;> rfl

theorem Imports.admits_toJson (imports : Imports) : shape.Admits imports.toJson :=
  .record (.given (.flag _) (.given (.flag _) (.given (.flag _) (.given (.flag _)
    (.given (admits_map .text imports.paths) .nil)))))

theorem Imports.ofJson_toJson (imports : Imports) : ofJson imports.toJson = imports := by
  obtain ⟨i, a, e, k, paths⟩ := imports
  change Imports.mk i a e k ((paths.map Json.str).map Json.toText) = _
  rw [map_toText_str]

theorem Metadata.admits_toJson (metadata : Metadata) : shape.Admits metadata.toJson :=
  .record (.given (.text _) (fieldsAdmit_optionalMember (by decide)
    (admits_optionalText metadata.instructionEnum)
    (.given (.text _) (.given metadata.imports.admits_toJson .nil))))

theorem Metadata.ofJson_toJson (metadata : Metadata) : ofJson metadata.toJson = metadata := by
  obtain ⟨origin, enum, fingerprint, imports⟩ := metadata
  have h : ∀ enum : Option String, ofJson (toJson ⟨origin, enum, fingerprint, imports⟩) =
      ⟨origin, enum, fingerprint, Imports.ofJson imports.toJson⟩ := by
    rintro (_ | enum) <;> rfl
  rw [h, Imports.ofJson_toJson]

namespace Instruction

theorem admits_toJson (instruction : Instruction) : shape.Admits instruction.toJson := by
  have haccounts : ∀ present ∈ instruction.accounts.map fun roles =>
      Json.arr (roles.map AccountRole.toJson), (Shape.list AccountRole.shape).Admits present := by
    intro present h
    obtain ⟨roles, -, rfl⟩ := Option.map_eq_some_iff.mp h
    exact admits_map AccountRole.admits_toJson roles
  have h : FieldsAdmit [("accounts", Presence.defaulted, .optional (.list AccountRole.shape))]
      (optionalMember "accounts" (instruction.accounts.map fun roles =>
        .arr (roles.map AccountRole.toJson)) ++ []) :=
    fieldsAdmit_optionalMember (by decide) haccounts .nil
  rw [List.append_nil] at h
  exact .record (.given (.count _) (.given (.text _)
    (.given (admits_map InputField.admits_toJson instruction.inputs) h)))

theorem toCode_ofCode (code : UInt64) : (ofCode code).toCode = code := by
  simp [ofCode, toCode]

theorem ofJson_toJson (instruction : Instruction) : ofJson instruction.toJson = instruction := by
  obtain ⟨code, name, inputs, accounts⟩ := instruction
  have h : ∀ accounts : Option (List AccountRole), ofJson (toJson ⟨code, name, inputs, accounts⟩) =
      ⟨(ofCode code).toCode, name, (inputs.map InputField.toJson).map InputField.ofJson,
        accounts.map fun roles => (roles.map AccountRole.toJson).map AccountRole.ofJson⟩ := by
    rintro (_ | accounts) <;> rfl
  simp only [h, toCode_ofCode, map_ofJson_toJson InputField.ofJson_toJson,
    map_ofJson_toJson AccountRole.ofJson_toJson, Option.map_id']

/-- **The compact text** of an instruction list is read back as the list. -/
theorem listOfText_compact (instructions : List Instruction) :
    listOfText (listToJson instructions).compact = .ok instructions := by
  have hlist : (Shape.list shape).Admits (listToJson instructions) :=
    admits_map admits_toJson instructions
  unfold listOfText
  rw [readText_compact hlist (by decide) (by decide)]
  change Except.ok ((instructions.map toJson).map ofJson) = _
  rw [map_ofJson_toJson ofJson_toJson]

end Instruction

namespace Document

theorem admits_toJson (document : Document) : shape.Admits document.toJson :=
  .record (.given (.text _) (.given (.text _)
    (.given (admits_map Instruction.admits_toJson document.instructions)
      (.given document.metadata.admits_toJson .nil))))

theorem ofJson_toJson (document : Document) : ofJson document.toJson = document := by
  obtain ⟨name, version, instructions, metadata⟩ := document
  change Document.mk name version ((instructions.map Instruction.toJson).map Instruction.ofJson)
    (Metadata.ofJson metadata.toJson) = _
  rw [map_ofJson_toJson Instruction.ofJson_toJson, Metadata.ofJson_toJson]

/-- **The text of a document** is read back as the document. -/
theorem ofText_render (document : Document) : ofText document.render = .ok document := by
  unfold ofText render
  rw [readText_pretty document.admits_toJson (by decide) (by decide)]
  change Except.ok (ofJson document.toJson) = _
  rw [ofJson_toJson]

end Document

/-- **Nothing is lost in storage.** Any document is read back from the text that is stored for it,
and any instruction list from the text that its fingerprint is taken of. -/
theorem stored_text_round_trip :
    (∀ document : Document, Document.ofText document.render = .ok document) ∧
      ∀ instructions : List Instruction,
        Instruction.listOfText (Instruction.listToJson instructions).compact = .ok instructions :=
  ⟨Document.ofText_render, Instruction.listOfText_compact⟩

end AbiRecovery
