import SchemaCompiler.Proofs.Sdl.Tokens

/-!
# Reading back what was printed

The tokens of a part are read as that part, up to what is read of its strings, whatever stands
behind them, as long as that does not go on with the part. A type goes on with `!`, the parts of a
definition with a directive or its arguments, and a definition with anything that may follow a head.
-/

namespace SchemaCompiler.GraphQL

namespace Tokens

/-- The next token is none of these. -/
def Stops (stops ts : List Token) : Prop := ∀ t ∈ ts.head?, t ∉ stops

section Stops

variable {stops stops' : List Token} {rest : List Token}

@[simp]
theorem stops_cons {t : Token} {ts : List Token} : Stops stops (t :: ts) ↔ t ∉ stops := by
  simp [Stops]

theorem Stops.mono (h : Stops stops rest) (hsub : stops' ⊆ stops) : Stops stops' rest :=
  fun t ht hmem => h t ht (hsub hmem)

theorem Stops.head?_ne {t : Token} (h : Stops stops rest) (ht : t ∈ stops) :
    rest.head? ≠ some t :=
  fun hhead => h t hhead ht

theorem stops_enclosed {opening closing : Char} (hmark : .mark opening ∉ stops)
    (hrest : Stops stops rest) (items : List (List Token)) :
    Stops stops (enclosed opening closing items ++ rest) := by
  unfold enclosed
  split
  · exact hrest
  · exact stops_cons.mpr hmark

theorem stops_names {opening : Token} (hopening : opening ∉ stops) (hrest : Stops stops rest)
    (m : Char) (ns : List String) : Stops stops (names opening m ns ++ rest) := by
  cases ns with
  | nil => exact hrest
  | cons name ns => exact stops_cons.mpr hopening

end Stops

@[simp]
theorem mark?_cons (c : Char) (ts : List Token) : mark? c (.mark c :: ts) = some ts := by
  simp [mark?]

@[simp]
theorem name?_cons {name : String} (h : isName name = true) (ts : List Token) :
    name? (.word name :: ts) = some (name, ts) := by
  simp [name?, h]

@[simp]
theorem takeText_ofDescription (indent : Nat) (description : Option String) (name : String)
    (ts : List Token) :
    takeText (ofDescription indent description ++ .word name :: ts) =
      (description.map (rereadText indent), .word name :: ts) := by
  cases description <;> rfl

section Items

variable {α β : Type} {item : List Token → Option (β × List Token)} {tokens : α → List Token}
  {read : α → β} {as : List α} {rest : List Token}

/-- Items are read one by one when none of them goes on with the next. -/
theorem many?_flatMap {starts : Token → Bool} (stops : List Token)
    (hitem : ∀ a ∈ as, ∀ rest, Stops stops rest → item (tokens a ++ rest) = some (read a, rest))
    (hstart : ∀ a ∈ as, ∃ t ts, tokens a = t :: ts ∧ starts t = true ∧ t ∉ stops)
    (hstops : Stops stops rest) (hend : ∀ t ∈ rest.head?, starts t = false) :
    many? starts item (as.flatMap tokens ++ rest) = some (as.map read, rest) := by
  induction as with
  | nil =>
    cases rest with
    | nil => simp [many?]
    | cons t rest => simp [many?, hend t rfl]
  | cons a as ih =>
    rw [List.forall_mem_cons] at hitem hstart
    obtain ⟨⟨t, ts, ha, ht, -⟩, hmore⟩ := hstart
    have hnext : Stops stops (as.flatMap tokens ++ rest) := by
      cases as with
      | nil => exact hstops
      | cons b bs =>
        obtain ⟨u, us, hb, -, hu⟩ := hmore b List.mem_cons_self
        simpa [Stops, hb] using hu
    have hread := hitem.1 _ hnext
    rw [ha, List.cons_append] at hread
    rw [List.flatMap_cons, List.append_assoc, ha, List.cons_append, many?, if_pos ht, hread]
    simp [ih hitem.2 hmore]

/-- Items between marks are read up to the mark that closes them. -/
theorem enclosed?_enclosed (opening closing : Char) (stops : List Token)
    (hitem : ∀ a ∈ as, ∀ rest, Stops stops rest → item (tokens a ++ rest) = some (read a, rest))
    (hstart : ∀ a ∈ as, ∃ t ts, tokens a = t :: ts ∧ t ∉ .mark closing :: stops)
    (hclosing : .mark closing ∉ stops) (hrest : Stops [.mark opening] rest) :
    enclosed? opening closing item (enclosed opening closing (as.map tokens) ++ rest) =
      some (as.map read, rest) := by
  by_cases hnil : as = []
  · subst hnil
    have hopening := hrest.head?_ne List.mem_cons_self
    simp [enclosed, enclosed?, hopening]
  · have hstart (a : α) (ha : a ∈ as) :
        ∃ t ts, tokens a = t :: ts ∧ decide (t ≠ .mark closing) = true ∧ t ∉ stops := by
      obtain ⟨t, ts, hts, ht⟩ := hstart a ha
      rw [List.mem_cons, not_or] at ht
      exact ⟨t, ts, hts, decide_eq_true ht.1, ht.2⟩
    have hitems : many? (· ≠ .mark closing) item (as.flatMap tokens ++ .mark closing :: rest) =
        some (as.map read, .mark closing :: rest) :=
      many?_flatMap stops hitem hstart (stops_cons.mpr hclosing) (by simp)
    simp only [ne_eq, decide_not, List.flatMap_def] at hitems
    simp [enclosed, enclosed?, hnil, hitems]

end Items

theorem names?_names {opening : Token} {m : Char} {ns : List String} {rest : List Token}
    (hns : ∀ name ∈ ns, isName name = true) (hrest : Stops [opening, .mark m] rest) :
    names? opening m (names opening m ns ++ rest) = some (ns, rest) := by
  cases ns with
  | nil =>
    have hopening := hrest.head?_ne List.mem_cons_self
    simp [names, names?, hopening]
  | cons name ns =>
    rw [List.forall_mem_cons] at hns
    have hend : ∀ t ∈ rest.head?, decide (t = .mark m) = false := fun t ht =>
      decide_eq_false fun h => hrest.head?_ne (by simp) (h ▸ ht)
    have hmore : many? (· = .mark m) (fun ts => name? ts.tail)
        (ns.flatMap (fun name => [.mark m, .word name]) ++ rest) = some (ns.map id, rest) :=
      many?_flatMap [] (fun name hname rest _ => name?_cons (hns.2 name hname) rest)
        (fun name _ => ⟨_, _, rfl, decide_eq_true rfl, List.not_mem_nil⟩)
        (fun _ _ => List.not_mem_nil) hend
    simp [names, names?, mark?, hns.1, hmore]

end Tokens

open Tokens

theorem TypeNode.marked_of_stops (t : TypeNode) {rest : List Token} (h : Stops [.mark '!'] rest) :
    t.marked rest = (t, rest) := by
  unfold marked
  split
  · simp at h
  · rfl

/-- A type is read with the mark behind it, so a type that is marked already must not be followed by
another mark. -/
theorem TypeNode.read?_tokens {t : TypeNode} (h : t.Grammatical) (rest : List Token) :
    ((∀ u, t ≠ nonNull u) → read? (t.tokens ++ rest) = some (t.marked rest)) ∧
      (Stops [.mark '!'] rest → read? (t.tokens ++ rest) = some (t, rest)) := by
  induction t generalizing rest with
  | named name =>
    have hread : read? ((named name).tokens ++ rest) = some ((named name).marked rest) :=
      if_pos h
    exact ⟨fun _ => hread, fun hrest => by rw [hread, marked_of_stops _ hrest]⟩
  | list item ih =>
    have hitem := (ih h (.mark ']' :: rest)).2 (by simp)
    have hread : read? ((list item).tokens ++ rest) = some ((list item).marked rest) := by
      simp [tokens, read?, hitem]
    exact ⟨fun _ => hread, fun hrest => by rw [hread, marked_of_stops _ hrest]⟩
  | nonNull inner ih =>
    have hinner := (ih h.1 (.mark '!' :: rest)).1 h.2
    exact ⟨fun hne => absurd rfl (hne inner), fun _ => by simpa [tokens, marked] using hinner⟩

/-! ## What is read of a document -/

def Directive.reread (indent : Nat) (d : Directive) : Directive :=
  ⟨d.name, d.arguments.map fun a => (a.1, rereadText indent a.2)⟩

def InputValueNode.reread (indent : Nat) (v : InputValueNode) : InputValueNode :=
  ⟨v.description.map (rereadText indent), v.name, v.type, v.directives.map (·.reread indent)⟩

def FieldNode.reread (indent : Nat) (f : FieldNode) : FieldNode :=
  ⟨f.description.map (rereadText indent), f.name, f.arguments.map (·.reread indent), f.type,
    f.directives.map (·.reread indent)⟩

def EnumValueNode.reread (indent : Nat) (v : EnumValueNode) : EnumValueNode :=
  ⟨v.description.map (rereadText indent), v.name, v.directives.map (·.reread indent)⟩

def TypeHead.reread (head : TypeHead) : TypeHead :=
  ⟨head.description.map (rereadText 0), head.name, head.directives.map (·.reread 0)⟩

def Definition.reread : Definition → Definition
  | scalar head => scalar head.reread
  | object head interfaces fields => object head.reread interfaces (fields.map (·.reread 2))
  | interface head interfaces fields => interface head.reread interfaces (fields.map (·.reread 2))
  | union head members => union head.reread members
  | enum head values => enum head.reread (values.map (·.reread 2))
  | inputObject head fields => inputObject head.reread (fields.map (·.reread 2))
  | extension name fields => extension name (fields.map (·.reread 2))

/-- A document with what is read of its strings. -/
def Document.reread (d : Document) : Document := ⟨d.definitions.map Definition.reread⟩

/-! ## Parts of definitions -/

section Parts

variable (indent : Nat) {rest : List Token}

theorem Directive.readArgument?_tokens {a : String × String} (h : isName a.1 = true)
    (rest : List Token) :
    readArgument? (argumentTokens indent a ++ rest) =
      some ((a.1, rereadText indent a.2), rest) := by
  simp [readArgument?, argumentTokens, h, ofText, takeText]

theorem Directive.read?_tokens {d : Directive} (h : d.Grammatical)
    (hrest : Stops [.mark '('] rest) :
    read? (d.tokens indent ++ rest) = some (d.reread indent, rest) := by
  have harguments := enclosed?_enclosed '(' ')' []
    (fun a ha rest _ => readArgument?_tokens indent (h.arguments a ha) rest)
    (fun a _ => ⟨_, _, rfl, by simp⟩) List.not_mem_nil hrest
  simp [read?, tokens, h.name, harguments, reread]

theorem directives?_tokens {ds : List Directive} (h : ∀ d ∈ ds, d.Grammatical)
    (hrest : Stops [.mark '@', .mark '('] rest) :
    directives? (directivesTokens indent ds ++ rest) = some (ds.map (·.reread indent), rest) := by
  have hend : ∀ t ∈ rest.head?, decide (t = .mark '@') = false := fun t ht =>
    decide_eq_false fun h => hrest.head?_ne List.mem_cons_self (h ▸ ht)
  exact many?_flatMap [.mark '('] (fun d hd rest => Directive.read?_tokens indent (h d hd))
    (fun d _ => ⟨_, _, rfl, by simp⟩) (hrest.mono (by simp)) hend

theorem stops_directivesTokens {stops : List Token} (hmark : .mark '@' ∉ stops)
    (hrest : Stops stops rest) (ds : List Directive) :
    Stops stops (directivesTokens indent ds ++ rest) := by
  cases ds with
  | nil => exact hrest
  | cons d ds => exact stops_cons.mpr hmark

/-- Marks that go on with an argument, a field or an enum value. -/
def partMarks : List Token := [.mark '!', .mark '@', .mark '(']

/-- A type and the directives behind it. -/
theorem read?_typed {t : TypeNode} {ds : List Directive} (ht : t.Grammatical)
    (hds : ∀ d ∈ ds, d.Grammatical) (hrest : Stops partMarks rest) :
    TypeNode.read? (t.tokens ++ (directivesTokens indent ds ++ rest)) =
        some (t, directivesTokens indent ds ++ rest) ∧
      directives? (directivesTokens indent ds ++ rest) =
        some (ds.map (·.reread indent), rest) :=
  ⟨(TypeNode.read?_tokens ht _).2
      (stops_directivesTokens indent (by decide) (hrest.mono (by decide)) ds),
    directives?_tokens indent hds (hrest.mono (by decide))⟩

theorem InputValueNode.read?_tokens {v : InputValueNode} (h : v.Grammatical)
    (hrest : Stops partMarks rest) :
    read? (v.tokens indent ++ rest) = some (v.reread indent, rest) := by
  obtain ⟨htype, hdirectives⟩ := read?_typed indent h.type h.directives hrest
  simp [read?, tokens, h.name, htype, hdirectives, reread]

/-- A description or a name is no mark, so a part that starts with one goes on with nothing. -/
theorem exists_ofDescription_append (description : Option String) (name : String)
    (ts stops : List Token) (hstops : ∀ t ∈ stops, ∃ c, t = .mark c) :
    ∃ t us, ofDescription indent description ++ .word name :: ts = t :: us ∧ t ∉ stops := by
  have hnot (t : Token) (h : ∀ c, t ≠ .mark c) : t ∉ stops := fun hmem => by
    obtain ⟨c, hc⟩ := hstops t hmem
    exact h c hc
  cases description with
  | none => exact ⟨.word name, ts, rfl, hnot _ nofun⟩
  | some s => exact ⟨ofText indent s, .word name :: ts, rfl, hnot _ nofun⟩

theorem InputValueNode.exists_tokens (v : InputValueNode) (c : Char) :
    ∃ t ts, v.tokens indent = t :: ts ∧ t ∉ .mark c :: partMarks := by
  unfold tokens
  rw [List.append_assoc]
  exact exists_ofDescription_append indent _ _ _ _ (by simp [partMarks])

theorem FieldNode.read?_tokens {f : FieldNode} (h : f.Grammatical) (hrest : Stops partMarks rest) :
    read? (f.tokens indent ++ rest) = some (f.reread indent, rest) := by
  obtain ⟨htype, hdirectives⟩ := read?_typed indent h.type h.directives hrest
  have hcolon (ts : List Token) : Stops [.mark '('] (.mark ':' :: ts) := by simp
  have harguments := enclosed?_enclosed '(' ')' partMarks
    (fun v hv rest => InputValueNode.read?_tokens indent (h.arguments v hv))
    (fun v _ => v.exists_tokens indent ')') (by decide)
    (hcolon (f.type.tokens ++ (directivesTokens indent f.directives ++ rest)))
  simp [read?, tokens, h.name, harguments, htype, hdirectives, reread]

theorem FieldNode.exists_tokens (f : FieldNode) (c : Char) :
    ∃ t ts, f.tokens indent = t :: ts ∧ t ∉ .mark c :: partMarks := by
  unfold tokens
  simp only [List.append_assoc, List.cons_append]
  exact exists_ofDescription_append indent _ _ _ _ (by simp [partMarks])

theorem EnumValueNode.read?_tokens {v : EnumValueNode} (h : v.Grammatical)
    (hrest : Stops partMarks rest) :
    read? (v.tokens indent ++ rest) = some (v.reread indent, rest) := by
  have hdirectives := directives?_tokens indent h.directives (hrest.mono (by decide))
  simp [read?, tokens, h.name, h.value, hdirectives, reread]

theorem EnumValueNode.exists_tokens (v : EnumValueNode) (c : Char) :
    ∃ t ts, v.tokens indent = t :: ts ∧ t ∉ .mark c :: partMarks :=
  exists_ofDescription_append indent _ _ _ _ (by simp [partMarks])

end Parts

/-! ## Definitions -/

section Definitions

variable {rest : List Token}

theorem readFields?_tokens {fields : List FieldNode} (h : ∀ f ∈ fields, f.Grammatical)
    (hrest : Stops [.mark '\x7b'] rest) :
    readFields? (fieldsTokens fields ++ rest) = some (fields.map (·.reread 2), rest) :=
  enclosed?_enclosed '\x7b' '\x7d' partMarks (fun f hf _ => FieldNode.read?_tokens 2 (h f hf))
    (fun f _ => f.exists_tokens 2 '\x7d') (by decide) hrest

namespace Definition

/-- What goes on with a definition. -/
def goesOn : List Token :=
  [.word "implements", .mark '&', .mark '@', .mark '(', .mark '\x7b', .mark '=', .mark '|']

theorem read?_head {head : TypeHead} {keyword : String} {interfaces : List String}
    (hkeyword : keyword ≠ "extend") :
    read? (head.tokens keyword interfaces ++ rest) =
      readType? (head.description.map (rereadText 0)) keyword
        (.word head.name :: (Tokens.names (.word "implements") '&' interfaces ++
          (directivesTokens 0 head.directives ++ rest))) := by
  simp only [read?, TypeHead.tokens, List.append_assoc, List.cons_append, takeText_ofDescription]
  cases head.description <;> simp_all

theorem exists_tokens (d : Definition) : ∃ t ts, d.tokens = t :: ts ∧ t ∉ goesOn := by
  have hhead (head : TypeHead) (keyword : String) (interfaces : List String) (ts : List Token)
      (hkeyword : keyword ≠ "implements") :
      ∃ t us, head.tokens keyword interfaces ++ ts = t :: us ∧ t ∉ goesOn := by
    unfold TypeHead.tokens
    cases head.description with
    | none => exact ⟨_, _, rfl, by simp [goesOn, hkeyword]⟩
    | some s => exact ⟨_, _, rfl, by simp [goesOn, ofText]⟩
  cases d with
  | scalar head => simpa [tokens] using hhead head "scalar" [] [] (by decide)
  | object head interfaces fields => exact hhead head "type" interfaces _ (by decide)
  | interface head interfaces fields => exact hhead head "interface" interfaces _ (by decide)
  | union head members => exact hhead head "union" [] _ (by decide)
  | enum head values => exact hhead head "enum" [] _ (by decide)
  | inputObject head fields => exact hhead head "input" [] _ (by decide)
  | extension name fields => exact ⟨_, _, rfl, by decide⟩

/-- An object or an interface is read up to its fields. -/
theorem read?_fields {head : TypeHead} {keyword : String} {interfaces : List String}
    {fields : List FieldNode} (hkeyword : keyword = "type" ∨ keyword = "interface")
    (hhead : head.Grammatical) (hinterfaces : ∀ name ∈ interfaces, isName name = true)
    (hfields : ∀ f ∈ fields, f.Grammatical) (hrest : Stops goesOn rest) :
    read? (head.tokens keyword interfaces ++ (fieldsTokens fields ++ rest)) =
      some (if keyword = "type" then object head.reread interfaces (fields.map (·.reread 2))
        else interface head.reread interfaces (fields.map (·.reread 2)), rest) := by
  have hbody {stops : List Token} (hmark : .mark '\x7b' ∉ stops) (hstops : stops ⊆ goesOn) :
      Stops stops (fieldsTokens fields ++ rest) :=
    stops_enclosed hmark (hrest.mono hstops) _
  have hfields := readFields?_tokens hfields (hrest.mono (by decide))
  have hdirectives := directives?_tokens 0 hhead.directives (hbody (by decide) (by decide))
  have hinterfaces : interfaces? (Tokens.names (.word "implements") '&' interfaces ++
      (directivesTokens 0 head.directives ++ (fieldsTokens fields ++ rest))) = _ :=
    names?_names hinterfaces
      (stops_directivesTokens 0 (by decide) (hbody (by decide) (by decide)) _)
  rw [read?_head (by rintro rfl; simp at hkeyword)]
  simp [readType?, hkeyword, hhead.name, hinterfaces, hdirectives, hfields, TypeHead.reread]

/-- A type without interfaces is read up to its members. -/
theorem read?_members {head : TypeHead} {keyword : String} (hhead : head.Grammatical)
    (hkeyword : keyword ∉ ["type", "interface", "extend"])
    (hrest : Stops [.mark '@', .mark '('] rest) :
    read? (head.tokens keyword [] ++ rest) = readMembers? head.reread keyword rest := by
  have hdirectives := directives?_tokens 0 hhead.directives hrest
  simp only [List.mem_cons, List.not_mem_nil, or_false, not_or] at hkeyword
  rw [read?_head hkeyword.2.2]
  simp [readType?, hkeyword, hhead.name, Tokens.names, hdirectives, TypeHead.reread]

theorem read?_tokens {d : Definition} (h : d.Grammatical) (hrest : Stops goesOn rest) :
    read? (d.tokens ++ rest) = some (d.reread, rest) := by
  have hopen {stops : List Token} (hstops : stops ⊆ goesOn) : Stops stops rest := hrest.mono hstops
  cases d with
  | scalar head => exact read?_members h (by decide) (hopen (by decide))
  | object head interfaces fields =>
    obtain ⟨hhead, hinterfaces, hfields⟩ := h
    rw [tokens, List.append_assoc]
    exact read?_fields (Or.inl rfl) hhead hinterfaces hfields hrest
  | interface head interfaces fields =>
    obtain ⟨hhead, hinterfaces, hfields⟩ := h
    rw [tokens, List.append_assoc]
    exact read?_fields (Or.inr rfl) hhead hinterfaces hfields hrest
  | union head members =>
    have hmembers : Tokens.names? (.mark '=') '|'
        (Tokens.names (.mark '=') '|' members ++ rest) = some (members, rest) :=
      names?_names h.2 (hopen (by decide))
    rw [tokens, List.append_assoc, read?_members h.1 (by decide)
      (stops_names (by decide) (hopen (by decide)) _ _)]
    simp [readMembers?, hmembers, reread]
  | enum head values =>
    have hvalues := enclosed?_enclosed '\x7b' '\x7d' partMarks
      (fun v hv _ => EnumValueNode.read?_tokens 2 (h.2 v hv))
      (fun v _ => v.exists_tokens 2 '\x7d') (by decide) (hopen (by decide))
    rw [tokens, List.append_assoc, read?_members h.1 (by decide)
      (stops_enclosed (by decide) (hopen (by decide)) _)]
    simp [readMembers?, hvalues, reread]
  | inputObject head fields =>
    have hfields := enclosed?_enclosed '\x7b' '\x7d' partMarks
      (fun v hv _ => InputValueNode.read?_tokens 2 (h.2 v hv))
      (fun v _ => v.exists_tokens 2 '\x7d') (by decide) (hopen (by decide))
    rw [tokens, List.append_assoc, read?_members h.1 (by decide)
      (stops_enclosed (by decide) (hopen (by decide)) _)]
    simp [readMembers?, hfields, reread]
  | extension name fields =>
    obtain ⟨hname, hne, hfields⟩ := h
    have hfields := readFields?_tokens hfields (hopen (by decide))
    simp [read?, tokens, takeText, readExtension?, hname, hfields, hne, reread]

end Definition

end Definitions

/-- The text of a grammatical document is read as that document, up to its strings. -/
theorem Document.ofText?_text {d : Document} (h : d.Grammatical) :
    ofText? d.text = some d.reread := by
  obtain ⟨hne, hall⟩ := h
  have hread : many? (fun _ => true) Definition.read?
      (d.definitions.flatMap Definition.tokens ++ []) =
        some (d.definitions.map Definition.reread, []) :=
    many?_flatMap Definition.goesOn
      (fun definition hd rest => Definition.read?_tokens (hall definition hd))
      (fun definition _ => by simpa using definition.exists_tokens) nofun nofun
  rw [List.append_nil] at hread
  simp [ofText?, tokens?_text hall, hread, hne, reread]

end SchemaCompiler.GraphQL
