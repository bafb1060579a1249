import SchemaCompiler.FileTree

/-!
# Glob patterns

`?` stands for one character, `*` for any characters and `[a-z]` or `[!a-z]` for one of a class;
all of them may stand for a slash too. `**` is a whole component of a path and stands for any number
of components.
-/

namespace SchemaCompiler.Glob

/-- A character of a class, or a run of them. -/
inductive ClassItem where
  | single (c : Char)
  | range (first last : Char)
deriving DecidableEq, Repr

def ClassItem.contains (c : Char) : ClassItem → Bool
  | single d => c == d
  | range first last => first ≤ c && c ≤ last

inductive Token where
  | char (c : Char)
  | anyChar
  | anySequence
  | anyComponents
  | within (items : List ClassItem)
  | except (items : List ClassItem)
deriving DecidableEq, Repr

def Token.char? : Token → Option Char
  | char c => some c
  | _ => none

inductive Problem where
  | invalidRange
  | tooManyStars
  | partOfComponent
deriving DecidableEq, Repr

/-- What is wrong with a pattern, and at which character. -/
structure PatternError where
  position : Nat
  problem : Problem
deriving DecidableEq, Repr

namespace PatternError

def reason : Problem → String
  | .invalidRange => "invalid range pattern"
  | .tooManyStars => "wildcards are either regular `*` or recursive `**`"
  | .partOfComponent => "recursive wildcards must form a single path component"

def text (e : PatternError) : String :=
  "Pattern syntax error near position " ++ toString e.position ++ ": " ++ reason e.problem

end PatternError

structure Pattern where
  tokens : List Token
deriving DecidableEq, Repr

namespace Pattern

/-! ## Reading -/

/-- The items between the brackets of a class. -/
def classItems : List Char → List ClassItem
  | first :: '-' :: last :: rest => .range first last :: classItems rest
  | c :: rest => .single c :: classItems rest
  | [] => []

/-- Cuts at the first `]` behind the first character: the text inside, and the text behind. -/
def closeClass? : List Char → Option (List Char × List Char)
  | [] => none
  | first :: rest =>
    match rest.dropWhile (· != ']') with
    | _ :: behind => some (first :: rest.takeWhile (· != ']'), behind)
    | [] => none

theorem length_closeClass? {cs inside behind : List Char}
    (h : closeClass? cs = some (inside, behind)) : behind.length < cs.length := by
  unfold closeClass? at h
  split at h
  · cases h
  · rename_i first rest
    split at h
    · rename_i c behind' heq
      cases h
      have hle := (List.dropWhile_sublist (· != ']') (l := rest)).length_le
      rw [heq] at hle
      simp only [List.length_cons] at hle ⊢
      omega
    · cases h

/-- A class behind its opening bracket: the token, the text behind it, and how many characters it
takes with both brackets. -/
def readClass? (cs : List Char) : Option (Token × List Char × Nat) :=
  match cs with
  | '!' :: cs =>
    (closeClass? cs).map fun (inside, behind) =>
      (.except (classItems inside), behind, inside.length + 3)
  | cs =>
    (closeClass? cs).map fun (inside, behind) =>
      (.within (classItems inside), behind, inside.length + 2)

theorem length_readClass? {cs behind : List Char} {t : Token} {n : Nat}
    (h : readClass? cs = some (t, behind, n)) : behind.length < cs.length := by
  unfold readClass? at h
  split at h
  · obtain ⟨_, hclose, heq⟩ := Option.map_eq_some_iff.1 h
    cases heq
    exact Nat.lt_succ_of_lt (length_closeClass? hclose)
  · obtain ⟨_, hclose, heq⟩ := Option.map_eq_some_iff.1 h
    cases heq
    exact length_closeClass? hclose

/-- The character before the one at hand, as far as it matters. -/
def startsComponent (previous : Option Char) : Bool := previous.all (· == '/')

/-- Reads tokens; `position` counts the characters before `cs`, and `previous` is the last of
them. -/
def readTokens (previous : Option Char) (position : Nat) (cs : List Char) :
    Except PatternError (List Token) :=
  match cs with
  | [] => .ok []
  | '?' :: rest => do
    let tokens ← readTokens (some '?') (position + 1) rest
    pure (.anyChar :: tokens)
  | '*' :: '*' :: '*' :: _ => .error ⟨position + 2, .tooManyStars⟩
  | '*' :: '*' :: rest =>
    if startsComponent previous then
      match rest with
      | [] => .ok [.anyComponents]
      | '/' :: rest => do
        let tokens ← readTokens (some '/') (position + 3) rest
        pure (.anyComponents :: tokens)
      | _ => .error ⟨position + 2, .partOfComponent⟩
    else .error ⟨position - 1, .partOfComponent⟩
  | '*' :: rest => do
    let tokens ← readTokens (some '*') (position + 1) rest
    pure (.anySequence :: tokens)
  | '[' :: rest =>
    match _h : readClass? rest with
    | some (token, behind, taken) => do
      let tokens ← readTokens (some ']') (position + taken) behind
      pure (token :: tokens)
    | none => .error ⟨position, .invalidRange⟩
  | c :: rest => do
    let tokens ← readTokens (some c) (position + 1) rest
    pure (.char c :: tokens)
termination_by cs.length
decreasing_by
  all_goals try (simp +arith; done)
  have := length_readClass? _h
  simp only [List.length_cons]
  omega

def parse (s : String) : Except PatternError Pattern :=
  (readTokens none 0 s.toList).map Pattern.mk

/-- Quotes the characters that have a meaning in patterns. -/
def escape (s : String) : String :=
  String.ofList (s.toList.flatMap fun c =>
    if c == '?' || c == '*' || c == '[' || c == ']' then ['[', c, ']'] else [c])

/-! ## Matching -/

/-- Whether `f` holds of the text or of what is left after dropping some of its first characters. -/
def onSuffix (f : List Char → Bool) : List Char → Bool
  | [] => f []
  | c :: cs => f (c :: cs) || onSuffix f cs

/-- Whether `f` holds of what is left behind some slash, or of nothing. -/
def behindSlash (f : List Char → Bool) : List Char → Bool
  | [] => f []
  | c :: cs => (c == '/' && f cs) || behindSlash f cs

def matchTokens : List Token → List Char → Bool
  | [], cs => cs.isEmpty
  | .anySequence :: tokens, cs => onSuffix (matchTokens tokens) cs
  | .anyComponents :: tokens, cs => matchTokens tokens cs || behindSlash (matchTokens tokens) cs
  | _ :: _, [] => false
  | .anyChar :: tokens, _ :: cs => matchTokens tokens cs
  | .char d :: tokens, c :: cs => c == d && matchTokens tokens cs
  | .within items :: tokens, c :: cs => items.any (·.contains c) && matchTokens tokens cs
  | .except items :: tokens, c :: cs => !items.any (·.contains c) && matchTokens tokens cs

def accepts (p : Pattern) (s : String) : Bool := matchTokens p.tokens s.toList

/-- The only text that a pattern without wildcards stands for. -/
def literal? (p : Pattern) : Option String :=
  (p.tokens.mapM Token.char?).map String.ofList

def isRecursive (p : Pattern) : Bool := p.tokens.contains .anyComponents

end Pattern

/-!
## Finding files by pattern

A pattern is matched against a file tree component by component. A component without wildcards is
entered by its name, one with wildcards stands for the names in a directory that match it, and `**`
stands for a directory and all directories below it. Names that start with a dot are names like all
others.
-/

inductive Step where
  | name (text : String)
  | below
  | matching (pattern : Pattern)

def Step.ofSegment (segment : String) : Except PatternError Step := do
  let pattern ← Pattern.parse segment
  match pattern.literal? with
  | some text => pure (.name text)
  | none => pure (if pattern.isRecursive then .below else .matching pattern)

/-- The components of a pattern; one slash at its end says nothing. -/
def steps (pattern : String) : Except PatternError (List Step) := do
  let _ ← Pattern.parse pattern
  let segments := Path.segments pattern
  let segments := if segments.getLast? = some "" then segments.dropLast else segments
  segments.mapM Step.ofSegment

/-- An entry of a directory. The directory `.` leaves no trace in the path. -/
def enter (dir : Path) (name : String) : Path :=
  if dir.text = "." then ⟨name⟩ else dir.join name

/-- A directory and all directories below it. -/
def directoriesFrom (t : FileTree) (dir : Path) : List Path :=
  match t.locate dir with
  | .ok place =>
    if t.isDirectoryAt place then
      dir :: (t.directoriesBelow place).map fun names => names.foldl enter dir
    else []
  | .error _ => []

/-- Whether the component `name` can be entered from a directory. -/
def isEntered (t : FileTree) (dir : Path) (name : String) : Bool :=
  if name = "." ∨ name = ".." then t.isDirectory dir else t.exists? (enter dir name)

def expandFrom (t : FileTree) : List Step → Path → List Path
  | [], p => [p]
  | .name text :: rest, dir =>
    if isEntered t dir text then expandFrom t rest (enter dir text) else []
  | .matching pattern :: rest, dir =>
    ((t.namesIn dir).filter pattern.accepts).flatMap fun name => expandFrom t rest (enter dir name)
  | .below :: rest, dir => (directoriesFrom t dir).flatMap (expandFrom t rest)

/-- The paths that a pattern stands for. -/
def expand (t : FileTree) (pattern : String) : Except PatternError (List Path) := do
  let steps ← steps pattern
  pure (if (Path.mk pattern).isAbsolute then [] else expandFrom t steps ⟨"."⟩)

end SchemaCompiler.Glob
