import TraceCheck.Byte

/-!
# `TraceCheck.Instruction.Template`: layouts of assembly text

A template lists what an instruction's text is made of: its mnemonic, literal text,
operand bytes in hexadecimal and a branch label. `render` fills one in. It asks first
for all the operand bytes that the template mentions anywhere, and only then for the
label, so that of two missing things the operand bytes are reported. Operand bytes
that the template does not mention are ignored.
-/

set_option autoImplicit false

namespace TraceCheck

/-- One piece of a template. -/
inductive Token where
  /-- The mnemonic of the instruction. -/
  | mnemonic
  /-- Literal text. -/
  | text (literal : String)
  /-- The operand byte at an index, counted from zero. -/
  | byte (index : Nat)
  /-- The label of a branch target. -/
  | label
deriving DecidableEq

/-- The pieces of an instruction's text, in order. -/
abbrev Template := List Token

/-- What a template is filled in with. -/
structure Filling where
  /-- The text of the mnemonic. -/
  mnemonic : String
  /-- The bytes after the opcode. -/
  operands : List Byte
  /-- The branch label, if there is one. -/
  label : Option String

/-- Why a template could not be filled in. -/
inductive RenderError where
  /-- The template mentions more operand bytes than there are. -/
  | operandLength (mnemonic : String) (expected actual : Nat)
  /-- The template mentions a branch label and there is none. -/
  | missingLabel (mnemonic : String)
deriving DecidableEq

/-- The text of an error. -/
def RenderError.message : RenderError → String
  | .operandLength mnemonic expected actual =>
    mnemonic ++ " needs " ++ toString expected ++ " operand byte(s), got " ++ toString actual
  | .missingLabel mnemonic =>
    mnemonic ++ " renders a branch target but no label was supplied"

namespace Token

/-- How many operand bytes there have to be for this token. -/
def need : Token → Nat
  | byte i => i + 1
  | _ => 0

/-- The text of a token. A byte that is not there is an error of its own, so the
operand list is never read beyond its end. -/
def write (f : Filling) : Token → Except RenderError String
  | mnemonic => .ok f.mnemonic
  | text literal => .ok literal
  | byte i =>
    match f.operands[i]? with
    | some b => .ok (Byte.hex b)
    | none => .error (.operandLength f.mnemonic (i + 1) f.operands.length)
  | label =>
    match f.label with
    | some l => .ok l
    | none => .error (.missingLabel f.mnemonic)

end Token

namespace Template

/-- How many operand bytes there have to be for the whole template. -/
def need (t : Template) : Nat := t.foldr (fun token n => max token.need n) 0

/-- Whether the template mentions a branch label. -/
def hasLabel (t : Template) : Bool := t.any (· == .label)

/-- The texts of the tokens in order, up to the first that has none. -/
def write (f : Filling) : Template → Except RenderError String
  | [] => .ok ""
  | token :: rest => do return (← token.write f) ++ (← Template.write f rest)

/-- Fills in a template. -/
def render (t : Template) (f : Filling) : Except RenderError String :=
  if f.operands.length < t.need then
    .error (.operandLength f.mnemonic t.need f.operands.length)
  else
    t.write f

@[simp] theorem need_nil : need [] = 0 := rfl

@[simp] theorem need_cons (token : Token) (t : Template) :
    need (token :: t) = max token.need (need t) := rfl

@[simp] theorem need_append (t u : Template) : need (t ++ u) = max (need t) (need u) := by
  induction t with
  | nil => simp
  | cons token t ih => simp [ih, Nat.max_assoc]

@[simp] theorem hasLabel_append (t u : Template) :
    hasLabel (t ++ u) = (hasLabel t || hasLabel u) := List.any_append

/-- Two templates in a row are written one after the other. -/
theorem write_append (f : Filling) (t u : Template) :
    write f (t ++ u) = do return (← write f t) ++ (← write f u) := by
  induction t with
  | nil =>
    show write f u = do return "" ++ (← write f u)
    cases write f u with
    | error e => rfl
    | ok s => exact congrArg Except.ok String.empty_append.symm
  | cons token t ih =>
    show (do return (← token.write f) ++ (← write f (t ++ u))) = _
    rw [ih]
    cases ht : token.write f with
    | error e => simp [write, ht, bind, Except.bind]
    | ok s =>
      cases hs : write f t with
      | error e => simp [write, ht, hs, bind, Except.bind]
      | ok s' =>
        cases hu : write f u with
        | error e => simp [write, ht, hs, bind, Except.bind, pure, Except.pure]
        | ok s'' =>
          simp [write, ht, hs, bind, Except.bind, pure, Except.pure, String.append_assoc]

end Template

end TraceCheck
