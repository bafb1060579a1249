import SchemaCompiler.TypeScript.Syntax

/-!
# Expressions in the place of patterns

Parameters in parentheses and the left sides of assignments are read as expressions first, because
only what follows tells them apart. Afterwards the expression is looked at again as a pattern, and
it fits, fits with a fault, or is refused.

* `Expr.isSimpleTarget` tells what a single value can be stored in;
* `Expr.asBinding` judges an expression as a parameter or a part of one, whose names must not be
  among those that `Expr.bindsProtected` looks for;
* `Expr.asTarget` judges it as a part of what is assigned to, and `Expr.assigned` as a whole left
  side.
-/

namespace SchemaCompiler.TypeScript

/-- How well an expression fits in the place of a pattern. -/
inductive Fit where
  | fits
  | faulty
  | refused
deriving DecidableEq, Repr

namespace Fit

/-- The worse of two judgements. -/
def and : Fit → Fit → Fit
  | refused, _ => refused
  | _, refused => refused
  | faulty, _ => faulty
  | _, faulty => faulty
  | fits, fits => fits

def unlessFaulty (sound : Bool) : Fit := if sound then fits else faulty

@[simp] theorem fits_and (f : Fit) : fits.and f = f := by cases f <;> rfl

@[simp] theorem and_fits (f : Fit) : f.and fits = f := by cases f <;> rfl

theorem and_comm (a b : Fit) : a.and b = b.and a := by cases a <;> cases b <;> rfl

end Fit

/-- The names that must not be bound or assigned to. -/
def isProtectedName (name : String) : Bool := name == "eval" || name == "arguments"

namespace Expr

/-- Whether a single value can be stored in what an expression stands for. -/
def isSimpleTarget : Expr → Bool
  | name text => !isProtectedName text
  | paren inner => inner.isSimpleTarget
  | member (member o p) _ => (member o p).isSimpleTarget
  | member (index o) _ => (index o).isSimpleTarget
  | member base _ => !(base matches .optionalLink _ _)
  | index (member o p) => (member o p).isSimpleTarget
  | index (index o) => (index o).isSimpleTarget
  | index base => !(base matches .optionalLink _ _)
  | superMember => true
  | nonNull inner => inner.isSimpleTarget
  | assertion inner => inner.isSimpleTarget
  | cast inner => inner.isSimpleTarget
  | instantiation inner => inner.isSimpleTarget
  | satisfies inner => inner.isSimpleTarget
  | _ => false

/-- Whether `=` may stand behind an expression at all. -/
def isAssignable : Expr → Bool
  | missing => true
  | name _ => true
  | member _ _ => true
  | index _ => true
  | superMember => true
  | optionalLink _ _ => true
  | paren _ => true
  | cast _ => true
  | satisfies _ => true
  | nonNull _ => true
  | assertion _ => true
  | instantiation _ => true
  | _ => false

def isDefaulted : ObjectEntry → Bool
  | .defaulted _ => true
  | _ => false

/-- Whether a default value stands in an object literal that is no pattern. -/
def hasDefaults : Expr → Bool
  | object entries _ => entries.any isDefaulted
  | _ => false

/-- Whether an expression is a pattern when it is assigned to. -/
def isDestructured : Expr → Bool
  | object _ _ => true
  | array _ _ => true
  | _ => false

/-! ## Parameters -/

mutual

/-- An expression as a parameter or a part of one. What a plain assignment inside takes apart has been
judged before. -/
def asBinding : Expr → Fit
  | name _ => .fits
  | missing => .fits
  | assign true left => if left.isDestructured then .fits else asBinding left
  | object entries trailing => bindingProperties entries trailing
  | array entries trailing => bindingItems entries trailing
  | _ => .faulty

def bindingProperties : List ObjectEntry → Bool → Fit
  | [], _ => .fits
  | .shorthand _ :: rest, trailing => bindingProperties rest trailing
  | .defaulted _ :: rest, trailing => bindingProperties rest trailing
  | .keyed e :: rest, trailing => (asBinding e).and (bindingProperties rest trailing)
  | .method :: _, _ => .refused
  | .spread e :: rest, trailing =>
    (Fit.unlessFaulty (rest.isEmpty && !trailing && e.isName)).and
      (bindingProperties rest trailing)

def bindingItems : List ListEntry → Bool → Fit
  | [], _ => .fits
  | .hole :: rest, trailing => bindingItems rest trailing
  | .item e :: rest, trailing => (asBinding e).and (bindingItems rest trailing)
  | .spread e :: rest, trailing =>
    if rest.isEmpty then
      (Fit.unlessFaulty (!trailing && !(e matches .assign _ _))).and (asBinding e)
    else Fit.faulty.and (bindingItems rest trailing)

end

mutual

/-- Whether a pattern binds a name that must not be bound. -/
def bindsProtected : Expr → Bool
  | name text => isProtectedName text
  | assign true left => bindsProtected left
  | object entries _ => propertiesBindProtected entries
  | array entries _ => itemsBindProtected entries
  | _ => false

def propertiesBindProtected : List ObjectEntry → Bool
  | [] => false
  | .shorthand text :: rest => isProtectedName text || propertiesBindProtected rest
  | .defaulted text :: rest => isProtectedName text || propertiesBindProtected rest
  | .keyed e :: rest => bindsProtected e || propertiesBindProtected rest
  | .method :: rest => propertiesBindProtected rest
  | .spread e :: rest => bindsProtected e || propertiesBindProtected rest

def itemsBindProtected : List ListEntry → Bool
  | [] => false
  | .hole :: rest => itemsBindProtected rest
  | .item e :: rest => bindsProtected e || itemsBindProtected rest
  | .spread e :: rest => bindsProtected e || itemsBindProtected rest

end

/-! ## Left sides of assignments -/

mutual

/-- An expression as a part of a pattern that is assigned to. -/
def asTarget : Expr → Fit
  | missing => .fits
  | assign true left => if left.isDestructured then .fits else asTarget left
  | object entries trailing => targetProperties entries trailing
  | array entries trailing => targetItems entries trailing
  | name text => .unlessFaulty (!isProtectedName text)
  | member o p => .unlessFaulty (member o p).isSimpleTarget
  | index o => .unlessFaulty (index o).isSimpleTarget
  | superMember => .fits
  | paren inner => .unlessFaulty inner.isSimpleTarget
  | cast inner => .unlessFaulty inner.isSimpleTarget
  | _ => .faulty

def targetProperties : List ObjectEntry → Bool → Fit
  | [], _ => .fits
  | .shorthand _ :: rest, trailing => targetProperties rest trailing
  | .defaulted _ :: rest, trailing => targetProperties rest trailing
  | .keyed e :: rest, trailing => (asTarget e).and (targetProperties rest trailing)
  | .method :: _, _ => .refused
  | .spread e :: rest, trailing =>
    ((Fit.unlessFaulty (rest.isEmpty && !trailing && !(e matches .assign _ _))).and
      (asTarget e)).and (targetProperties rest trailing)

def targetItems : List ListEntry → Bool → Fit
  | [], _ => .fits
  | .hole :: rest, trailing => targetItems rest trailing
  | .item e :: rest, trailing => (asTarget e).and (targetItems rest trailing)
  | .spread e :: rest, trailing =>
    if rest.isEmpty then
      (Fit.unlessFaulty (!trailing && !(e matches .assign _ _))).and (asTarget e)
    else Fit.faulty.and (targetItems rest trailing)

end

/-- An expression as the whole left side of `=`, or of `of` and `in` in a loop. -/
def assigned (e : Expr) : Fit :=
  match e with
  | object entries trailing => targetProperties entries trailing
  | array entries trailing => targetItems entries trailing
  | _ => if e.isAssignable then .unlessFaulty e.isSimpleTarget else .refused

end Expr

end SchemaCompiler.TypeScript
