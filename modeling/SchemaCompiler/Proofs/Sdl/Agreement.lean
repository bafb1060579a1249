import SchemaCompiler.Proofs.DocumentTree
import SchemaCompiler.Proofs.Sdl.Readback

/-!
# Tree and text of a document

The tree of a document is always read as that document. Its text is, exactly when the grammar allows
the document and all of its strings are legible: then both forms say the same. A string is legible
when none of its characters is printed by its decimal code, or, over several lines, when a block
keeps its margin and its ends.
-/

namespace SchemaCompiler.GraphQL

/-! ## The strings of a document -/

def Directive.texts (d : Directive) : List String := d.arguments.map (·.2)

def InputValueNode.texts (v : InputValueNode) : List String :=
  v.description.toList ++ v.directives.flatMap Directive.texts

def FieldNode.texts (f : FieldNode) : List String :=
  f.description.toList ++ f.arguments.flatMap InputValueNode.texts ++
    f.directives.flatMap Directive.texts

def EnumValueNode.texts (v : EnumValueNode) : List String :=
  v.description.toList ++ v.directives.flatMap Directive.texts

def TypeHead.texts (head : TypeHead) : List String :=
  head.description.toList ++ head.directives.flatMap Directive.texts

def Definition.texts : Definition → List String
  | scalar head | union head _ => head.texts
  | object head _ fields | interface head _ fields => head.texts ++ fields.flatMap FieldNode.texts
  | enum head values => head.texts ++ values.flatMap EnumValueNode.texts
  | inputObject head fields => head.texts ++ fields.flatMap InputValueNode.texts
  | extension _ fields => fields.flatMap FieldNode.texts

/-- The descriptions of a document and the arguments of its directives. -/
def Document.texts (d : Document) : List String := d.definitions.flatMap Definition.texts

/-! ## Parts that are read as they were written -/

section Parts

variable (indent : Nat)

theorem rereadText_eq_self_iff (s : String) : rereadText indent s = s ↔ Legible s.toList := by
  rw [← reread_eq_self_iff indent, rereadText, ← String.toList_inj, String.toList_ofList]

theorem reread_description_iff (description : Option String) :
    description.map (rereadText indent) = description ↔
      ∀ s ∈ description.toList, Legible s.toList := by
  cases description <;> simp [rereadText_eq_self_iff]

/-- Items that are read as they were written when their strings are legible. -/
theorem reread_items_iff {α : Type} {reread : α → α} {texts : α → List String}
    (h : ∀ a, reread a = a ↔ ∀ s ∈ texts a, Legible s.toList) (items : List α) :
    items.map reread = items ↔ ∀ s ∈ items.flatMap texts, Legible s.toList := by
  simp only [map_eq_self_iff, h, List.forall_mem_flatMap]

theorem Directive.reread_eq_self_iff (d : Directive) :
    d.reread indent = d ↔ ∀ s ∈ d.texts, Legible s.toList := by
  obtain ⟨name, arguments⟩ := d
  simp only [reread, texts, mk.injEq, true_and, map_eq_self_iff, Prod.ext_iff,
    rereadText_eq_self_iff, List.forall_mem_map]

theorem reread_directives_iff (ds : List Directive) :
    ds.map (·.reread indent) = ds ↔ ∀ s ∈ ds.flatMap Directive.texts, Legible s.toList :=
  reread_items_iff (Directive.reread_eq_self_iff indent) ds

theorem InputValueNode.reread_eq_self_iff (v : InputValueNode) :
    v.reread indent = v ↔ ∀ s ∈ v.texts, Legible s.toList := by
  obtain ⟨description, name, type, directives⟩ := v
  simp only [reread, texts, mk.injEq, true_and, List.forall_mem_append, reread_description_iff,
    reread_directives_iff]

theorem FieldNode.reread_eq_self_iff (f : FieldNode) :
    f.reread indent = f ↔ ∀ s ∈ f.texts, Legible s.toList := by
  obtain ⟨description, name, arguments, type, directives⟩ := f
  have harguments := reread_items_iff (InputValueNode.reread_eq_self_iff indent) arguments
  simp only [reread, texts, mk.injEq, true_and, List.forall_mem_append, reread_description_iff,
    harguments, reread_directives_iff, and_assoc]

theorem EnumValueNode.reread_eq_self_iff (v : EnumValueNode) :
    v.reread indent = v ↔ ∀ s ∈ v.texts, Legible s.toList := by
  obtain ⟨description, name, directives⟩ := v
  simp only [reread, texts, mk.injEq, true_and, List.forall_mem_append, reread_description_iff,
    reread_directives_iff]

end Parts

theorem TypeHead.reread_eq_self_iff (head : TypeHead) :
    head.reread = head ↔ ∀ s ∈ head.texts, Legible s.toList := by
  obtain ⟨description, name, directives⟩ := head
  simp only [reread, texts, mk.injEq, true_and, List.forall_mem_append, reread_description_iff,
    reread_directives_iff]

theorem Definition.reread_eq_self_iff (d : Definition) :
    d.reread = d ↔ ∀ s ∈ d.texts, Legible s.toList := by
  cases d with
  | scalar head => simp only [reread, texts, scalar.injEq, TypeHead.reread_eq_self_iff]
  | object head interfaces fields =>
    simp only [reread, texts, object.injEq, TypeHead.reread_eq_self_iff, true_and,
      List.forall_mem_append, reread_items_iff (FieldNode.reread_eq_self_iff 2)]
  | interface head interfaces fields =>
    simp only [reread, texts, interface.injEq, TypeHead.reread_eq_self_iff, true_and,
      List.forall_mem_append, reread_items_iff (FieldNode.reread_eq_self_iff 2)]
  | union head members =>
    simp only [reread, texts, union.injEq, TypeHead.reread_eq_self_iff, and_true]
  | enum head values =>
    simp only [reread, texts, enum.injEq, TypeHead.reread_eq_self_iff, List.forall_mem_append,
      reread_items_iff (EnumValueNode.reread_eq_self_iff 2)]
  | inputObject head fields =>
    simp only [reread, texts, inputObject.injEq, TypeHead.reread_eq_self_iff,
      List.forall_mem_append, reread_items_iff (InputValueNode.reread_eq_self_iff 2)]
  | extension name fields =>
    simp only [reread, texts, extension.injEq, true_and,
      reread_items_iff (FieldNode.reread_eq_self_iff 2)]

namespace Document

theorem reread_eq_self_iff (d : Document) : d.reread = d ↔ ∀ s ∈ d.texts, Legible s.toList := by
  obtain ⟨definitions⟩ := d
  simp only [reread, texts, mk.injEq, reread_items_iff Definition.reread_eq_self_iff]

/-- The text of a document is read as that document exactly when the grammar allows the document and
all of its strings are legible. -/
theorem ofText?_text_iff (d : Document) :
    ofText? d.text = some d ↔ d.Grammatical ∧ ∀ s ∈ d.texts, Legible s.toList := by
  rw [← reread_eq_self_iff]
  constructor
  · intro h
    have hd := grammatical_ofText? h
    rw [ofText?_text hd, Option.some_inj] at h
    exact ⟨hd, h⟩
  · rintro ⟨hd, h⟩
    rw [ofText?_text hd, h]

end Document

/-! ## Agreement -/

/-- The tree of a schema's document is read as that document, and two schemas have the same tree
only when they have the same document. The text is read as the same document as the tree exactly
when the grammar allows the document and all of its strings are legible. -/
theorem tree_and_text_agree_iff (a b : Schema) :
    Document.ofTree? (Document.ofSchema a).tree = some (Document.ofSchema a) ∧
      ((Document.ofSchema a).tree.same (Document.ofSchema b).tree = true ↔
        Document.ofSchema a = Document.ofSchema b) ∧
      (Document.ofText? (Document.ofSchema a).text =
          Document.ofTree? (Document.ofSchema a).tree ↔
        (Document.ofSchema a).Grammatical ∧
          ∀ s ∈ (Document.ofSchema a).texts, Legible s.toList) := by
  refine ⟨Document.ofTree?_tree _, Document.same_tree_iff _ _, ?_⟩
  rw [Document.ofTree?_tree]
  exact Document.ofText?_text_iff _

/-- A user whose description ends in a character beyond the first plane. -/
def wavingSchema : Schema where
  baseTypes :=
    [{ name := "User", kind := .object, description := some "Hi 😀",
       fields := [⟨"id", .named "ID" false, [], none, none, none⟩] }]

/-- The character is printed by the six digits of its decimal code, and the first four of them are
read as a hexadecimal code. -/
theorem beyond_first_plane_misread :
    (Document.ofTree? (Document.ofSchema wavingSchema).tree).map Document.texts = some ["Hi 😀"] ∧
      (Document.ofText? (Document.ofSchema wavingSchema).text).map Document.texts =
        some ["Hi ኅ12"] := by
  have hdocument : Document.ofSchema wavingSchema =
      ⟨[.object ⟨some "Hi 😀", "User", []⟩ [] [⟨none, "id", [], .nonNull (.named "ID"), []⟩]]⟩ := by
    simp [Document.ofSchema, wavingSchema, sortByName, sortedNames, fieldNodes, FieldNode.of,
      Definition.ofBase, Definition.head, Directive.ofDeprecation, TypeNode.ofFieldType,
      TypeNode.required, FieldType.named]
  have hgrammatical : (Document.ofSchema wavingSchema).Grammatical := by
    rw [hdocument]
    refine ⟨nofun, ?_⟩
    rw [List.forall_mem_singleton]
    refine ⟨⟨by decide, nofun⟩, nofun, ?_⟩
    rw [List.forall_mem_singleton]
    exact ⟨by decide, nofun, ⟨(by decide : isName "ID" = true), nofun⟩, nofun⟩
  rw [Document.ofTree?_tree, Document.ofText?_text hgrammatical, hdocument]
  exact ⟨rfl, by decide +kernel⟩

end SchemaCompiler.GraphQL
