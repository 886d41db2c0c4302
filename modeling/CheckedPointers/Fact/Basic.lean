import CheckedPointers.Location
/-! # Facts about a program

The engine never reads C. A front end walks each compilation unit and reports facts: the
declarations it met, with the shape of their types, and the assignments, calls, returns, casts
and pointer arithmetic between expressions. This module holds those facts as data.

A type shape is a base type name, the pointer and array levels wrapped around it (outermost
first), and, for a function type, its signature. -/

namespace CheckedPointers

/-- One level of indirection in a declared type. -/
inductive Level where
  | pointer
  | array
  deriving DecidableEq, Repr, Inhabited

mutual

/-- The shape of a declared type, as far as pointer inference cares. -/
structure TypeShape where
  base : String
  levels : List Level
  function : Option FunctionShape

/-- The signature of a function type. -/
structure FunctionShape where
  ret : TypeShape
  params : List ParamShape
  hasPrototype : Bool
  variadic : Bool

/-- One parameter of a signature, with the identity of its declaration when known. -/
structure ParamShape where
  name : String
  ty : TypeShape
  key : Option DeclKey
  itype : Option String

end

instance : Inhabited TypeShape := ⟨⟨"", [], none⟩⟩

mutual

/-- Structural equality of type shapes. -/
def TypeShape.beq : TypeShape → TypeShape → Bool
  | ⟨b1, l1, f1⟩, ⟨b2, l2, f2⟩ => b1 == b2 && l1 == l2 && FunctionShape.beqOpt f1 f2

def FunctionShape.beqOpt : Option FunctionShape → Option FunctionShape → Bool
  | none, none => true
  | some a, some b => FunctionShape.beq a b
  | _, _ => false

def FunctionShape.beq : FunctionShape → FunctionShape → Bool
  | ⟨r1, p1, h1, v1⟩, ⟨r2, p2, h2, v2⟩ =>
    TypeShape.beq r1 r2 && ParamShape.beqList p1 p2 && h1 == h2 && v1 == v2

def ParamShape.beqList : List ParamShape → List ParamShape → Bool
  | [], [] => true
  | a :: as, b :: bs => ParamShape.beq a b && ParamShape.beqList as bs
  | _, _ => false

def ParamShape.beq : ParamShape → ParamShape → Bool
  | ⟨n1, t1, k1, i1⟩, ⟨n2, t2, k2, i2⟩ =>
    n1 == n2 && TypeShape.beq t1 t2 && k1 == k2 && i1 == i2

end

instance : BEq TypeShape := ⟨TypeShape.beq⟩

namespace TypeShape

/-- A type with no levels. -/
def scalar (base : String) : TypeShape := ⟨base, [], none⟩

/-- `base` under `depth` pointer levels. -/
def pointer (base : String) (depth : Nat) : TypeShape := ⟨base, List.replicate depth .pointer, none⟩

/-- A bare function type, prototyped and not variadic. -/
def ofSignature (ret : TypeShape) (params : List ParamShape) : TypeShape :=
  ⟨"", [], some ⟨ret, params, true, false⟩⟩

/-- The type under one more outermost level. -/
def wrap (t : TypeShape) (l : Level) : TypeShape := { t with levels := l :: t.levels }

def depth (t : TypeShape) : Nat := t.levels.length

def isPointerLike (t : TypeShape) : Bool := !t.levels.isEmpty

/-- A bare function type: a signature with no level around it. -/
def isFunction (t : TypeShape) : Bool := t.levels.isEmpty && t.function.isSome

/-- The type one level in, for a pointer or array. -/
def pointee? (t : TypeShape) : Option TypeShape :=
  match t.levels with
  | [] => none
  | _ :: rest => some { t with levels := rest }

end TypeShape

/-- A parameter with a name and type and nothing else. -/
def ParamShape.new (name : String) (ty : TypeShape) : ParamShape := ⟨name, ty, none, none⟩

/-- The parameter, declared at `key`. -/
def ParamShape.withKey (p : ParamShape) (key : DeclKey) : ParamShape := { p with key := some key }

/-- What a declaration fact declares. -/
inductive DeclKind where
  | variable
  | field
  | parameter
  | function
  deriving DecidableEq, Repr, Inhabited

/-- A declaration was seen. -/
structure DeclFact where
  key : DeclKey
  kind : DeclKind
  ty : TypeShape
  /-- Externally visible: a global variable or a non-static function. -/
  isGlobal : Bool := false
  /-- For a function: this declaration carries the body. -/
  isDefinition : Bool := false
  rewritable : Bool := true
  inMacro : Bool := false
  itype : Option String := none
  boundsInterop : Bool := false
  /-- For a function definition: the declaration the front end paired it with. -/
  declaration : Option DeclKey := none
  deriving Inhabited

namespace DeclFact

/-- A local, rewritable declaration with no annotations. -/
def make (key : DeclKey) (kind : DeclKind) (ty : TypeShape) : DeclFact := { key, kind, ty }

/-- The declaration, made externally visible. -/
def global (d : DeclFact) : DeclFact := { d with isGlobal := true }

/-- The declaration, marked as the one carrying the body. -/
def definition (d : DeclFact) : DeclFact := { d with isDefinition := true }

/-- The definition, paired with the declaration at `k`. -/
def pairedWith (d : DeclFact) (k : DeclKey) : DeclFact := { d with declaration := some k }

def name (d : DeclFact) : String := d.key.name

end DeclFact

/-- An expression, reduced to what finds the constraint entries it refers to. -/
inductive Expr where
  /-- A reference to a declaration; `inContext` marks one from inside the function that owns it. -/
  | decl (key : DeclKey) (inContext : Bool)
  | deref (e : Expr)
  | index (e : Expr)
  | addrOf (e : Expr)
  /-- The value a call returns. -/
  | call (callee : Expr)
  | stringLiteral
  | conditional (branches : List Expr)
  | null
  | other
  deriving Repr, Inhabited

/-- One fact from the front end. -/
inductive Fact where
  | declare (d : DeclFact)
  | assign (lhs rhs : Expr) (loc : Option SourceLoc)
  /-- A call, with its arguments and where its value is stored, if anywhere. -/
  | call (callee : Expr) (args : List Expr) (result : Option Expr) (loc : Option SourceLoc)
  | ret (function : DeclKey) (e : Expr) (loc : Option SourceLoc)
  | cast (e : Expr) (src dst : TypeShape) (loc : Option SourceLoc)
  /-- Pointer arithmetic or subscripting on the expression. -/
  | arithmetic (e : Expr) (loc : Option SourceLoc)
  deriving Inhabited

end CheckedPointers
