import SchemaCompiler.Proofs.Sdl.Blocks
import SchemaCompiler.Proofs.Sdl.Reader

/-!
# The tokens of a document

The text of a document that the grammar allows is cut into the tokens of its parts, with what is
read of its strings. Each part is followed by something that its last token ends before: a blank, a
line end or a mark.
-/

namespace SchemaCompiler.GraphQL

/-- What is read of a string. -/
def rereadText (indent : Nat) (s : String) : String := String.ofList (reread indent s.toList)

/-! ## Tokens of parts -/

namespace Tokens

def ofText (indent : Nat) (s : String) : Token := .text (rereadText indent s)

def ofDescription (indent : Nat) (description : Option String) : List Token :=
  (description.map (ofText indent)).toList

/-- Items between marks, or nothing. -/
def enclosed (opening closing : Char) (items : List (List Token)) : List Token :=
  if items = [] then [] else .mark opening :: items.flatten ++ [.mark closing]

/-- Names behind a token that opens their list, or nothing. -/
def names (opening : Token) (m : Char) : List String → List Token
  | [] => []
  | name :: more => opening :: .word name :: more.flatMap fun name => [.mark m, .word name]

end Tokens

def TypeNode.tokens : TypeNode → List Token
  | named name => [.word name]
  | list item => .mark '[' :: item.tokens ++ [.mark ']']
  | nonNull inner => inner.tokens ++ [.mark '!']

def Directive.argumentTokens (indent : Nat) (a : String × String) : List Token :=
  [.word a.1, .mark ':', Tokens.ofText indent a.2]

def Directive.tokens (indent : Nat) (d : Directive) : List Token :=
  .mark '@' :: .word d.name :: Tokens.enclosed '(' ')' (d.arguments.map (argumentTokens indent))

def directivesTokens (indent : Nat) (ds : List Directive) : List Token :=
  ds.flatMap (·.tokens indent)

def InputValueNode.tokens (indent : Nat) (v : InputValueNode) : List Token :=
  Tokens.ofDescription indent v.description ++ .word v.name :: .mark ':' :: v.type.tokens ++
    directivesTokens indent v.directives

def FieldNode.tokens (indent : Nat) (f : FieldNode) : List Token :=
  Tokens.ofDescription indent f.description ++ .word f.name ::
    Tokens.enclosed '(' ')' (f.arguments.map (·.tokens indent)) ++ .mark ':' :: f.type.tokens ++
    directivesTokens indent f.directives

def EnumValueNode.tokens (indent : Nat) (v : EnumValueNode) : List Token :=
  Tokens.ofDescription indent v.description ++ .word v.name :: directivesTokens indent v.directives

def TypeHead.tokens (head : TypeHead) (keyword : String) (interfaces : List String) : List Token :=
  Tokens.ofDescription 0 head.description ++ .word keyword :: .word head.name ::
    Tokens.names (.word "implements") '&' interfaces ++ directivesTokens 0 head.directives

def fieldsTokens (fields : List FieldNode) : List Token :=
  Tokens.enclosed '\x7b' '\x7d' (fields.map (·.tokens 2))

def Definition.tokens : Definition → List Token
  | scalar head => head.tokens "scalar" []
  | object head interfaces fields => head.tokens "type" interfaces ++ fieldsTokens fields
  | interface head interfaces fields => head.tokens "interface" interfaces ++ fieldsTokens fields
  | union head members => head.tokens "union" [] ++ Tokens.names (.mark '=') '|' members
  | enum head values =>
    head.tokens "enum" [] ++ Tokens.enclosed '\x7b' '\x7d' (values.map (·.tokens 2))
  | inputObject head fields =>
    head.tokens "input" [] ++ Tokens.enclosed '\x7b' '\x7d' (fields.map (·.tokens 2))
  | extension name fields =>
    .word "extend" :: .word "type" :: .word name :: fieldsTokens fields

/-! ## Cutting -/

/-- A text that the token in front of it ends before. -/
def Apart (cs : List Char) : Prop := ∀ c ∈ cs.head?, isNameRest c = false ∧ c ≠ '"'

/-- A text is cut into tokens, whatever follows it. -/
def Spells (cs : List Char) (ts : List Token) : Prop :=
  ∀ rest, Apart rest → tokens? (cs ++ rest) = (tokens? rest).map (ts ++ ·)

@[simp]
theorem apart_nil : Apart [] := nofun

@[simp]
theorem apart_cons {c : Char} {cs : List Char} :
    Apart (c :: cs) ↔ isNameRest c = false ∧ c ≠ '"' := by
  simp [Apart]

/-- A mark ends every token in front of it. -/
theorem apart_mark {c : Char} (hc : c ∈ marks) (cs : List Char) : Apart (c :: cs) := by
  have hmarks : ∀ c ∈ marks, isNameRest c = false ∧ c ≠ '"' := by simp [marks, isNameRest]
  exact apart_cons.mpr (hmarks c hc)

theorem Apart.append {cs ds : List Char} (hcs : Apart cs) (hds : Apart ds) : Apart (cs ++ ds) := by
  cases cs with
  | nil => exact hds
  | cons c cs => exact apart_cons.mpr (apart_cons.mp hcs)

theorem Apart.flatMap {α : Type} {f : α → List Char} {as : List α} (h : ∀ a ∈ as, Apart (f a)) :
    Apart (as.flatMap f) := by
  induction as with
  | nil => exact apart_nil
  | cons a as ih =>
    rw [List.forall_mem_cons] at h
    exact h.1.append (ih h.2)

theorem tokens?_ignored {c : Char} (hc : isIgnored c = true) (cs : List Char) :
    tokens? (c :: cs) = tokens? cs := by
  rw [tokens?, if_pos hc]

theorem tokens?_token {cs rest : List Char} {t : Token} {c : Char} (hc : isIgnored c = false)
    (hhash : c ≠ '#') (ht : token? (c :: cs) = some (t, rest)) (hrest : rest.length ≤ cs.length) :
    tokens? (c :: cs) = (tokens? rest).map (t :: ·) := by
  rw [tokens?, if_neg (by simp [hc]), if_neg hhash, ht]
  exact if_pos hrest

/-- Characters of words start nothing else. -/
theorem plain_of_isNameRest {c : Char} (hc : isNameRest c = true) :
    c ∉ marks ∧ isIgnored c = false ∧ c ≠ '#' := by
  have hne (d : Char) (hd : isNameRest d = false) : c ≠ d := by
    rintro rfl
    rw [hc] at hd
    cases hd
  have hblanks : ∀ d ∈ [' ', '\t', '\n', '\r', ','], isNameRest d = false := by simp [isNameRest]
  have horder : c.toNat ≠ 0xFEFF := fun h =>
    hne (.ofNat 0xFEFF) (by decide) (by rw [← h, Char.ofNat_toNat])
  refine ⟨fun h => hne c (apart_cons.mp (apart_mark h [])).1 rfl, ?_, hne '#' (by decide)⟩
  rw [isIgnored, Bool.or_eq_false_iff, decide_eq_false_iff_not, decide_eq_false_iff_not]
  exact ⟨fun h => hne c (hblanks c h) rfl, horder⟩

namespace Spells

variable {cs ds : List Char} {ts us : List Token}

theorem nil : Spells [] [] := fun rest _ => by simp

theorem append (h : Spells cs ts) (hds : Apart ds) (h' : Spells ds us) :
    Spells (cs ++ ds) (ts ++ us) := by
  intro rest hrest
  rw [List.append_assoc, h _ (hds.append hrest), h' rest hrest, Option.map_map]
  simp [Function.comp_def]

theorem skip {c : Char} (h : Spells cs ts) (hc : isIgnored c = true) : Spells (c :: cs) ts :=
  fun rest hrest => (tokens?_ignored hc _).trans (h rest hrest)

theorem blanks (h : Spells cs ts) (n : Nat) : Spells (blanks n ++ cs) ts := by
  induction n with
  | zero => exact h
  | succ n ih => exact ih.skip (by decide)

theorem mark {c : Char} (h : Spells cs ts) (hc : c ∈ marks) :
    Spells (c :: cs) (.mark c :: ts) := by
  intro rest hrest
  have hplain : ∀ c ∈ marks, isIgnored c = false ∧ c ≠ '#' := by simp [marks, isIgnored]
  obtain ⟨hignored, hhash⟩ := hplain c hc
  rw [List.cons_append, tokens?_token hignored hhash (if_pos hc) le_rfl, h rest hrest,
    Option.map_map]
  rfl

theorem word {name : String} (hname : isName name = true) :
    Spells name.toList [.word name] := by
  intro rest hrest
  unfold isName at hname
  split at hname
  · cases hname
  · rename_i c cs hcs
    rw [Bool.and_eq_true] at hname
    have hc : isNameRest c = true := by
      rcases Bool.or_eq_true_iff.mp hname.1 with h | h <;>
        simp [isNameRest, Char.isAlphanum, h]
    obtain ⟨hmark, hignored, hhash⟩ := plain_of_isNameRest hc
    have hrun :
        (cs ++ rest).takeWhile isNameRest = cs ∧ (cs ++ rest).dropWhile isNameRest = rest := by
      have hall := List.all_eq_true.mp hname.2
      rw [List.takeWhile_append_of_pos hall, List.dropWhile_append_of_pos hall]
      cases rest with
      | nil => simp
      | cons d rest => simp [(apart_cons.mp hrest).1]
    have htoken : token? (c :: (cs ++ rest)) = some (.word name, rest) := by
      rw [token?, if_neg hmark, if_pos hc, hrun.1, hrun.2, ← hcs, String.ofList_toList]
    rw [hcs, List.cons_append, tokens?_token hignored hhash htoken (by simp)]
    rfl

theorem text (indent : Nat) (s : String) :
    Spells (stringText indent s).toList [Tokens.ofText indent s] := by
  intro rest hrest
  rw [stringText, String.toList_ofList]
  obtain ⟨body, hbody⟩ : ∃ body, stringChars indent s.toList = '"' :: body := by
    unfold stringChars
    split
    · exact ⟨_, rfl⟩
    · exact ⟨_, rfl⟩
  have hread := string?_stringChars indent s.toList fun h => (hrest '"' h).2 rfl
  have htoken : token? ('"' :: (body ++ rest)) = some (Tokens.ofText indent s, rest) := by
    rw [hbody] at hread
    rw [token?, if_neg (by decide), if_neg (by decide), ← List.cons_append, hread]
    rfl
  rw [hbody, List.cons_append, tokens?_token (by decide) (by decide) htoken (by simp)]
  rfl

theorem space (h : Spells cs ts) : Spells (' ' :: cs) ts := h.skip rfl

theorem feed (h : Spells cs ts) : Spells ('\n' :: cs) ts := h.skip rfl

/-- A line is ended. -/
theorem line (h : Spells cs ts) : Spells (cs ++ ['\n']) ts := by
  simpa using h.append (by simp [isNameRest]) nil.feed

theorem word_space {name : String} (hname : isName name = true) (h : Spells cs ts) :
    Spells (name.toList ++ ' ' :: cs) (.word name :: ts) :=
  (word hname).append (by simp [isNameRest]) h.space

theorem word_colon {name : String} (hname : isName name = true) (h : Spells cs ts) :
    Spells (name.toList ++ ':' :: ' ' :: cs) (.word name :: .mark ':' :: ts) :=
  (word hname).append (apart_mark (by decide) _) (h.space.mark (by decide))

/-- A mark behind a text. -/
theorem snoc {c : Char} (h : Spells cs ts) (hc : c ∈ marks) :
    Spells (cs ++ [c]) (ts ++ [.mark c]) :=
  h.append (apart_mark hc []) (nil.mark hc)

/-- A text between marks. -/
theorem between {c d : Char} (h : Spells cs ts) (hc : c ∈ marks) (hd : d ∈ marks) :
    Spells (c :: (cs ++ [d])) (.mark c :: (ts ++ [.mark d])) :=
  (h.snoc hd).mark hc

theorem flatMap {α : Type} {f : α → List Char} {g : α → List Token} {as : List α}
    (hapart : ∀ a ∈ as, Apart (f a)) (h : ∀ a ∈ as, Spells (f a) (g a)) :
    Spells (as.flatMap f) (as.flatMap g) := by
  induction as with
  | nil => exact nil
  | cons a as ih =>
    rw [List.forall_mem_cons] at hapart h
    exact h.1.append (.flatMap hapart.2) (ih hapart.2 h.2)

/-- Items with a separator between neighbours. -/
theorem separated {α : Type} {f : α → List Char} {g : α → List Token} {a : α} {as : List α}
    {sep : List Char} (seps : List Token) (hapart : ∀ cs, Apart (sep ++ cs))
    (hsep : ∀ cs ts, Spells cs ts → Spells (sep ++ cs) (seps ++ ts))
    (h : ∀ b ∈ a :: as, Spells (f b) (g b)) :
    Spells (sep.intercalate ((a :: as).map f)) (g a ++ as.flatMap fun b => seps ++ g b) := by
  rw [List.forall_mem_cons] at h
  rw [List.map_cons, intercalate_cons, List.flatMap_map]
  exact h.1.append (.flatMap fun b _ => hapart _)
    (flatMap (fun b _ => hapart _) fun b hb => hsep _ _ (h.2 b hb))

/-- Items in brackets, with a comma between neighbours. -/
theorem arguments {α : Type} {f : α → String} {g : α → List Token} {as : List α}
    (h : ∀ a ∈ as, Spells (f a).toList (g a)) :
    Spells (if as = [] then "" else "(" ++ ", ".intercalate (as.map f) ++ ")").toList
      (Tokens.enclosed '(' ')' (as.map g)) := by
  cases as with
  | nil => exact nil
  | cons a as =>
    have hapart (cs : List Char) : Apart ([',', ' '] ++ cs) := by simp [isNameRest]
    have hitems := separated [] hapart (fun cs ts h => (h.skip rfl).skip rfl) h
    have hclosed := hitems.between (by decide : '(' ∈ marks) (by decide : ')' ∈ marks)
    simpa [Tokens.enclosed, List.flatMap_def, Function.comp_def] using hclosed

/-- Lines between braces. -/
theorem block {α : Type} {f : α → String} {g : α → List Token} {as : List α}
    (hapart : ∀ a ∈ as, Apart (f a).toList) (h : ∀ a ∈ as, Spells (f a).toList (g a)) :
    Spells (blockText (as.map f)).toList (Tokens.enclosed '\x7b' '\x7d' (as.map g)) := by
  unfold blockText
  by_cases hne : as = []
  · subst hne
    simpa [Tokens.enclosed] using nil.feed
  · have hlines := (flatMap hapart h).snoc (by decide : '\x7d' ∈ marks)
    have hblock := (hlines.line.feed.mark (by decide : '\x7b' ∈ marks)).space
    simpa [Tokens.enclosed, hne, List.flatMap_def, Function.comp_def] using hblock

/-- Names behind a token that opens their list. -/
theorem names {opening : Token} {m : Char} {names : List String} {cs : List Char}
    (hnames : ∀ name ∈ names, isName name = true) (hm : m ∈ marks)
    (hopening : ∀ ds ts, Spells ds ts → Spells (cs ++ ds) (opening :: ts)) :
    Spells (if names = [] then [] else cs ++ [' ', m, ' '].intercalate (names.map String.toList))
      (Tokens.names opening m names) := by
  cases names with
  | nil => exact nil
  | cons name names =>
    have hapart (cs : List Char) : Apart ([' ', m, ' '] ++ cs) := by simp [isNameRest]
    have hseparated := separated [.mark m] hapart (fun cs ts h => ((h.skip rfl).mark hm).skip rfl)
      fun name hname => word (hnames name hname)
    exact hopening _ _ hseparated

end Spells

/-! ## Texts of parts -/

open Spells

theorem TypeNode.spells {t : TypeNode} (h : t.Grammatical) : Spells t.text.toList t.tokens := by
  induction t with
  | named name => exact word h
  | list item ih =>
    have hclosed := (ih h).between (by decide : '[' ∈ marks) (by decide : ']' ∈ marks)
    simpa [text, tokens] using hclosed
  | nonNull inner ih =>
    simpa [text, tokens] using (ih h.1).snoc (by decide : '!' ∈ marks)

section Parts

variable (indent : Nat)

theorem spells_descriptionInline (description : Option String) {cs : List Char} {ts : List Token}
    (h : Spells cs ts) :
    Spells ((descriptionInline indent description).toList ++ cs)
      (Tokens.ofDescription indent description ++ ts) := by
  cases description with
  | none => simpa [descriptionInline, Tokens.ofDescription] using h
  | some s =>
    simpa [descriptionInline, Tokens.ofDescription] using
      (Spells.text indent s).append (by simp [isNameRest]) h.space

theorem spells_descriptionLine (description : Option String) {cs : List Char} {ts : List Token}
    (h : Spells cs ts) :
    Spells ((descriptionLine indent description).toList ++ cs)
      (Tokens.ofDescription indent description ++ ts) := by
  cases description with
  | none => simpa [descriptionLine, Tokens.ofDescription] using h
  | some s =>
    have hline := (Spells.text indent s).append (by simp [isNameRest]) h.feed
    simpa [descriptionLine, indentText, Tokens.ofDescription] using hline.blanks indent

theorem Directive.spells_argument {a : String × String} (h : isName a.1 = true) :
    Spells (a.1 ++ ": " ++ stringText indent a.2).toList (argumentTokens indent a) := by
  simpa [argumentTokens] using word_colon h (Spells.text indent a.2)

theorem Directive.spells {d : Directive} (h : d.Grammatical) :
    Spells (d.text indent).toList (d.tokens indent) := by
  have harguments := Spells.arguments fun a ha => spells_argument indent (h.arguments a ha)
  have hname := (word h.name).append ?_ harguments
  · simpa [text, tokens] using hname.mark (by decide : '@' ∈ marks)
  · split <;> simp [isNameRest]

theorem apart_directivesText (ds : List Directive) : Apart (directivesText indent ds).toList := by
  rw [directivesText, String.toList_join, List.flatMap_map]
  exact .flatMap fun d _ => by simp [isNameRest]

theorem spells_directivesText {ds : List Directive} (h : ∀ d ∈ ds, d.Grammatical) :
    Spells (directivesText indent ds).toList (directivesTokens indent ds) := by
  rw [directivesText, String.toList_join, List.flatMap_map]
  refine flatMap (fun d _ => by simp [isNameRest]) fun d hd => ?_
  simpa using (Directive.spells indent (h d hd)).space

/-- A type with directives behind it. -/
theorem spells_typed {t : TypeNode} {ds : List Directive} (ht : t.Grammatical)
    (hds : ∀ d ∈ ds, d.Grammatical) :
    Spells (t.text.toList ++ (directivesText indent ds).toList)
      (t.tokens ++ directivesTokens indent ds) :=
  (TypeNode.spells ht).append (apart_directivesText indent ds) (spells_directivesText indent hds)

theorem InputValueNode.spells {v : InputValueNode} (h : v.Grammatical) :
    Spells (v.text indent).toList (v.tokens indent) := by
  have hname := word_colon h.name (spells_typed indent h.type h.directives)
  simpa [text, tokens] using spells_descriptionInline indent v.description hname

theorem spells_argumentsText {vs : List InputValueNode} (h : ∀ v ∈ vs, v.Grammatical) :
    Spells (argumentsText indent vs).toList
      (Tokens.enclosed '(' ')' (vs.map (·.tokens indent))) := by
  simpa [argumentsText] using Spells.arguments fun v hv => InputValueNode.spells indent (h v hv)

theorem apart_argumentsText (vs : List InputValueNode) :
    Apart (argumentsText indent vs).toList := by
  unfold argumentsText
  split <;> simp [isNameRest]

theorem FieldNode.spells {f : FieldNode} (h : f.Grammatical) :
    Spells (f.text indent).toList (f.tokens indent) := by
  have htype := (spells_typed indent h.type h.directives).line.space.mark (by decide : ':' ∈ marks)
  have harguments := (spells_argumentsText indent h.arguments).append (by simp [isNameRest]) htype
  have hname := (word h.name).append
    ((apart_argumentsText indent _).append (by simp [isNameRest])) harguments
  simpa [text, tokens, indentText] using
    spells_descriptionLine indent f.description (hname.blanks indent)

theorem EnumValueNode.spells {v : EnumValueNode} (h : v.Grammatical) :
    Spells (v.text indent).toList (v.tokens indent) := by
  have hname := (word h.name).append (apart_directivesText indent _)
    (spells_directivesText indent h.directives)
  simpa [text, tokens, indentText] using
    (spells_descriptionInline indent v.description hname.line).blanks indent

theorem spells_inputFieldLine {v : InputValueNode} (h : v.Grammatical) :
    Spells (inputFieldLine indent v).toList (v.tokens indent) := by
  simpa [inputFieldLine, indentText] using (InputValueNode.spells indent h).line.blanks indent

end Parts

/-! ## Texts of definitions -/

theorem FieldNode.apart_text (f : FieldNode) : Apart (f.text 2).toList := by
  unfold text descriptionLine
  split <;> simp [indentText, blanks, isNameRest]

theorem spells_fieldsText {fields : List FieldNode} (h : ∀ f ∈ fields, f.Grammatical) :
    Spells (blockText (fields.map (·.text 2))).toList (fieldsTokens fields) :=
  block (fun f _ => f.apart_text) fun f hf => FieldNode.spells 2 (h f hf)

theorem spells_valuesText {values : List EnumValueNode} (h : ∀ v ∈ values, v.Grammatical) :
    Spells (blockText (values.map (·.text 2))).toList
      (Tokens.enclosed '\x7b' '\x7d' (values.map (·.tokens 2))) :=
  block (fun v _ => by simp [EnumValueNode.text, indentText, blanks, isNameRest])
    fun v hv => EnumValueNode.spells 2 (h v hv)

theorem spells_inputFieldsText {fields : List InputValueNode} (h : ∀ v ∈ fields, v.Grammatical) :
    Spells (blockText (fields.map (inputFieldLine 2))).toList
      (Tokens.enclosed '\x7b' '\x7d' (fields.map (·.tokens 2))) :=
  block (fun v _ => by simp [inputFieldLine, indentText, blanks, isNameRest])
    fun v hv => spells_inputFieldLine 2 (h v hv)

theorem apart_blockText (lines : List String) : Apart (blockText lines).toList := by
  unfold blockText
  split <;> simp [isNameRest]

theorem apart_implementsText (interfaces : List String) :
    Apart (implementsText interfaces).toList := by
  unfold implementsText
  split <;> simp [isNameRest]

theorem spells_implementsText {interfaces : List String}
    (h : ∀ name ∈ interfaces, isName name = true) :
    Spells (implementsText interfaces).toList
      (Tokens.names (.word "implements") '&' interfaces) := by
  have hopening (ds : List Char) (ts : List Token) (hds : Spells ds ts) :
      Spells (" implements ".toList ++ ds) (.word "implements" :: ts) := by
    simpa using (word_space (by decide : isName "implements" = true) hds).space
  have hnames := Spells.names h (by decide : '&' ∈ marks) hopening
  unfold implementsText
  split_ifs at hnames ⊢ <;> simp_all

namespace TypeHead

variable {head : TypeHead}

theorem spells {keyword : String} {interfaces : List String} (h : head.Grammatical)
    (hkeyword : isName keyword = true) (hinterfaces : ∀ name ∈ interfaces, isName name = true) :
    Spells (head.text keyword interfaces).toList (head.tokens keyword interfaces) := by
  have hname := (word h.name).append ((apart_implementsText _).append (apart_directivesText 0 _))
    ((spells_implementsText hinterfaces).append (apart_directivesText 0 _)
      (spells_directivesText 0 h.directives))
  simpa [text, tokens] using
    spells_descriptionLine 0 head.description (word_space hkeyword hname)

/-- Heads without interfaces. -/
theorem spells_nil (keyword : String) (h : head.Grammatical) (hkeyword : isName keyword = true) :
    Spells (head.text keyword []).toList (head.tokens keyword []) :=
  spells h hkeyword (by simp)

end TypeHead

namespace Definition

theorem spells {d : Definition} (h : d.Grammatical) : Spells d.text.toList d.tokens := by
  cases d with
  | scalar head => simpa [text, tokens] using (TypeHead.spells_nil "scalar" h (by decide)).line
  | object head interfaces fields =>
    obtain ⟨hhead, hinterfaces, hfields⟩ := h
    have hhead := TypeHead.spells hhead (by decide : isName "type" = true) hinterfaces
    simpa [text, tokens] using hhead.append (apart_blockText _) (spells_fieldsText hfields)
  | interface head interfaces fields =>
    obtain ⟨hhead, hinterfaces, hfields⟩ := h
    have hhead := TypeHead.spells hhead (by decide : isName "interface" = true) hinterfaces
    simpa [text, tokens] using hhead.append (apart_blockText _) (spells_fieldsText hfields)
  | union head members =>
    obtain ⟨hhead, hmembers⟩ := h
    have hhead := TypeHead.spells_nil "union" hhead (by decide)
    have hopening (ds : List Char) (ts : List Token) (hds : Spells ds ts) :
        Spells ([' ', '=', ' '] ++ ds) (.mark '=' :: ts) :=
      (hds.space.mark (by decide)).space
    have hnames := Spells.names hmembers (by decide : '|' ∈ marks) hopening
    by_cases hnil : members = []
    · subst hnil
      simpa [text, tokens, Tokens.names] using hhead.line
    · rw [if_neg hnil] at hnames
      simpa [text, tokens, hnil] using hhead.append (by simp [isNameRest]) hnames.line
  | enum head values =>
    obtain ⟨hhead, hvalues⟩ := h
    have hhead := TypeHead.spells_nil "enum" hhead (by decide)
    simpa [text, tokens] using hhead.append (apart_blockText _) (spells_valuesText hvalues)
  | inputObject head fields =>
    obtain ⟨hhead, hfields⟩ := h
    have hhead := TypeHead.spells_nil "input" hhead (by decide)
    simpa [text, tokens] using hhead.append (apart_blockText _) (spells_inputFieldsText hfields)
  | extension name fields =>
    obtain ⟨hname, -, hfields⟩ := h
    have hbody := (word hname).append (apart_blockText _) (spells_fieldsText hfields)
    have htype := word_space (by decide : isName "type" = true) hbody
    simpa [text, tokens] using word_space (by decide : isName "extend" = true) htype

end Definition

/-- The text of a document is cut into the tokens of its definitions. -/
theorem Document.tokens?_text {d : Document}
    (h : ∀ definition ∈ d.definitions, definition.Grammatical) :
    tokens? d.text.toList = some (d.definitions.flatMap Definition.tokens) := by
  obtain ⟨definitions⟩ := d
  cases definitions with
  | nil => simp [text, tokens?]
  | cons first more =>
    have hapart (cs : List Char) : Apart (['\n'] ++ cs) := by simp [isNameRest]
    have hspells := Spells.separated [] hapart (fun cs ts h => h.feed)
      fun definition hd => Definition.spells (h definition hd)
    have htokens := hspells [] apart_nil
    simpa [text, Function.comp_def, tokens?] using htokens

end SchemaCompiler.GraphQL
