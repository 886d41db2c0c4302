import CheckedPointers.Program.Lookup
import CheckedPointers.Fact.Cast
/-! # Turning facts into constraints

Declarations are recorded first, so the order of the other facts does not matter to what they
find. Each other fact resolves its expressions to sets of entries, in the order written, and
relates them:

* an assignment equates every left entry with every right entry;
* a call binds each argument to the parameter at its position and the returned value to the
  result, for every function the callee may be; with no known callee every argument and the
  result are forced to `wild`, and an argument past the parameters is forced to `wild` only when
  variadic arguments are handled;
* a return equates the function's returns with the value;
* a cast that is not safe forces the cast expression to `wild`;
* arithmetic bounds the outermost slot of each entry below by `arr`.

Binding equates the formal with the actual and records the actual on the formal, for the
reconciliation of definitions with their declarations. -/

namespace CheckedPointers

namespace Program

/-- Sets the constraint store. -/
def updateStore (f : Arena → ConstraintStore → ConstraintStore) : ProgramM Unit :=
  modify fun p => { p with store := f p.arena p.store }

/-- The entry one level in, in the program's arena. -/
def dereferenceM (c : Nat) : ProgramM (Option Nat) := do
  let p ← get
  match p.arena.dereference c with
  | .ok (r, a) => set { p with arena := a }; return r
  | .error e => throw e

/-- The entry one level out, in the program's arena. -/
def addressOfM (c : Nat) : ProgramM Nat := do
  let p ← get
  let (d, a, s) := p.arena.addressOf p.store c
  set { p with arena := a, store := s }
  return d

/-- A string literal: one slot bounded below by `ntArr` and its entry. -/
def stringLiteral : ProgramM Nat := do
  let p ← get
  let (v, s) := p.store.fresh
  let s := (s.addGeq v .ntArr Reason.stringLiteral none).2
  let (id, a) := p.arena.alloc (.pointer ⟨"<string literal>", "char", [v], none, false, none, false,
    SortedSet.empty⟩)
  set { p with arena := a, store := s }
  return id

/-- The functions a call may reach: functions named directly, and those behind function
pointers, in the order of the callee's entries. -/
def callTargets (p : Program) (callee : SortedSet Nat) : List Nat :=
  callee.toList.flatMap fun c =>
    match p.arena.get? c with
    | some (.function _) => [c]
    | some (.pointer ptr) => ptr.function.toList
    | none => []

/-- Dereferences every entry of a set, keeping what remains. -/
def derefAll (cs : SortedSet Nat) : ProgramM (SortedSet Nat) :=
  cs.toList.foldlM (fun out c => do
    match ← dereferenceM c with
    | some d => return out.insert d
    | none => return out) SortedSet.empty

mutual

/-- The entries an expression evaluates to. -/
def exprEntries : Expr → ProgramM (SortedSet Nat)
  | .decl key inContext => getVariable key inContext
  | .deref e => do derefAll (← exprEntries e)
  | .index e => do derefAll (← exprEntries e)
  | .addrOf e => do
    let cs ← exprEntries e
    cs.toList.foldlM (fun out c => do return out.insert (← addressOfM c)) SortedSet.empty
  | .call callee => do
    let calleeEntries ← exprEntries callee
    let targets := callTargets (← get) calleeEntries
    let p ← get
    return targets.foldl (fun out f =>
      match p.arena.function? f with
      | some func => out.union func.returns
      | none => out) SortedSet.empty
  | .stringLiteral => do return SortedSet.singleton (← stringLiteral)
  | .conditional bs => branchEntries bs
  | .null | .other => return SortedSet.empty

/-- The entries of each branch, together. -/
def branchEntries : List Expr → ProgramM (SortedSet Nat)
  | [] => return SortedSet.empty
  | b :: bs => do
    let s ← exprEntries b
    let t ← branchEntries bs
    return s.union t

end


/-- Equates a formal with an actual, every alternative with every other, and records each
actual on its formal. -/
def bind (formal actual : SortedSet Nat) (reason : String) (loc : Option SourceLoc) : ProgramM Unit :=
  modify fun p =>
    formal.toList.foldl (fun p f =>
      actual.toList.foldl (fun p a =>
        { p with store := p.arena.constrainEq p.store f a reason loc,
                 arena := p.arena.recordArgument f a }) p) p

/-- Forces every alternative of a set to `wild`. -/
def forceSetWild (s : SortedSet Nat) (reason : String) (loc : Option SourceLoc) : ProgramM Unit :=
  updateStore fun a cs => a.constrainSetToWild cs s reason loc

/-- A call: binds arguments and result to every function the callee may be. -/
def addCall (callee : Expr) (args : List Expr) (result : Option Expr) (loc : Option SourceLoc) :
    ProgramM Unit := do
  let calleeEntries ← exprEntries callee
  let targets := callTargets (← get) calleeEntries
  let argSets ← args.mapM exprEntries
  let resultSet ← match result with
    | some r => exprEntries r
    | none => pure SortedSet.empty
  if targets.isEmpty then
    for s in argSets ++ [resultSet] do forceSetWild s Reason.unknownCallee loc
  else
    for f in targets do
      match (← get).arena.function? f with
      | none => pure ()
      | some func =>
        for (a, i) in argSets.zipIdx do
          match func.params[i]? with
          | some param => bind param a Reason.argument loc
          | none => if (← get).options.handleVarargs then forceSetWild a Reason.varargs loc
        bind func.returns resultSet Reason.assignment loc

/-- Records one fact other than a declaration. -/
def addFact : Fact → ProgramM Unit
  | .declare _ => pure ()
  | .assign lhs rhs loc => do
    let l ← exprEntries lhs
    let r ← exprEntries rhs
    updateStore fun a cs => a.constrainEqSets cs l r Reason.assignment loc
  | .call callee args result loc => addCall callee args result loc
  | .ret function e loc => do
    let funcs ← getVariable function true
    let value ← exprEntries e
    for f in funcs.toList do
      match (← get).arena.function? f with
      | some func => updateStore fun a cs => a.constrainEqSets cs func.returns value Reason.returned loc
      | none => pure ()
  | .cast e src dst loc => do
    if !dst.isExplicitCastSafe src then
      forceSetWild (← exprEntries e) Reason.incompatibleCast loc
  | .arithmetic e loc => do
    for c in (← exprEntries e).toList do
      match ((← get).arena.pointer? c).bind (·.slots.head?) with
      | some v => updateStore fun _ cs => (cs.addGeq v .arr Reason.pointerArith loc).2
      | none => pure ()

/-- Records every fact of one or more compilation units: all declarations first, then the other
facts in order. A failing fact stops the rest, keeping what came before. -/
def addFacts (facts : List Fact) : ProgramM Unit := do
  modify fun p => facts.foldl (fun p f =>
    match f with
    | .declare d => p.addDeclaration d
    | _ => p) p
  for f in facts do addFact f

end Program

end CheckedPointers
