import CheckedPointers.Program.Lookup
/-! # Reconciling definitions with declarations

A function definition and its declaration have entries of their own: the body constrains the
definition, call sites constrain the declaration. After a solve, one round of reconciliation adds
the constraints that keep the two compatible, comparing the highest alternatives of each side:

* a `wild` return in the body makes both returns `wild`;
* otherwise a `wild` declared return, when some call site passed a checked value less safe than
  the body's return, widens the body's return to that value;
* a checked body parameter whose declaration is `wild` widens each checked call-site argument to
  the body's parameter.

Chains of different depths are compared on their innermost common levels. Widening a return
raises its outermost level to the source and makes each inner pair meet at the less safe of the
two; widening an argument raises each of its levels to the parameter's. -/

namespace CheckedPointers

namespace Program

/-- The innermost common levels of two pointers' slots. -/
def aligned (ar : Arena) (a b : Nat) : Option (List Nat × List Nat) := do
  let sa := (← ar.pointer? a).slots
  let sb := (← ar.pointer? b).slots
  let n := min sa.length sb.length
  return (sa.drop (sa.length - n), sb.drop (sb.length - n))

/-- Raises a definition's return to a call-site value. -/
def widenReturn (ar : Arena) (cs : ConstraintStore) (defRet src : Nat) : ConstraintStore :=
  match aligned ar defRet src with
  | none => cs
  | some (t, s) =>
    ((t.zip s).zipIdx).foldl (fun (acc : ConstraintStore) (x : (Nat × Nat) × Nat) =>
      let ((tv, sv), i) := x
      let qt := cs.assignment tv
      let qs := cs.assignment sv
      if i == 0 || qt.height < qs.height then (acc.addGeq tv qs Reason.subtype none).2
      else if qs.height < qt.height then (acc.addGeq sv qt Reason.subtype none).2
      else acc) cs

/-- Raises a call-site argument to a definition parameter's levels. -/
def widenArgument (ar : Arena) (cs : ConstraintStore) (arg defParam : Nat) : ConstraintStore :=
  match aligned ar arg defParam with
  | none => cs
  | some (a, d) =>
    (a.zip d).foldl (fun acc (av, dv) =>
      let qa := cs.assignment av
      let qd := cs.assignment dv
      if qa.height < qd.height then (acc.addGeq av qd Reason.subtype none).2 else acc) cs

/-- Whether an optional qualifier is `wild`; nothing is not. -/
def isWildOpt : Option Qualifier → Bool
  | some q => q.isWild
  | none => false

/-- The order of optional qualifiers: nothing comes first. -/
def optLt : Option Qualifier → Option Qualifier → Bool
  | none, some _ => true
  | some a, some b => a.height < b.height
  | _, none => false

/-- Reconciles the returns of a definition and its declaration, compared through their highest
alternatives. -/
def reconcileReturns (ar : Arena) (cs : ConstraintStore) (df cf : FunctionEntry) : ConstraintStore :=
  match ar.highest cs df.returns, ar.highest cs cf.returns with
  | some dr, some cr =>
    if ar.isValid dr && ar.isValid cr then
      let defOut := ar.outermost? cs dr
      let declOut := ar.outermost? cs cr
      if isWildOpt defOut then
        let cs := ar.constrainSetToWild cs df.returns Reason.wildBodyReturn none
        ar.constrainSetToWild cs cf.returns Reason.wildBodyReturn none
      else if isWildOpt declOut then
        let sites := match ar.pointer? cr with
          | some p => p.arguments
          | none => SortedSet.empty
        match ar.highestNonWild cs sites with
        | some src => if optLt defOut (ar.outermost? cs src) then widenReturn ar cs dr src else cs
        | none => cs
      else cs
    else cs
  | _, _ => cs

/-- Reconciles one parameter position: a checked body parameter whose declaration is `wild`
widens each checked call-site argument of the declaration to it. -/
def reconcileParam (ar : Arena) (cs : ConstraintStore) (dps cps : SortedSet Nat) : ConstraintStore :=
  match ar.highest cs dps, ar.highest cs cps with
  | some dp, some cp =>
    if !ar.isValid dp || !ar.isValid cp then cs
    else if (ar.outermost? cs dp).all Qualifier.isWild then cs
    else if !isWildOpt (ar.outermost? cs cp) then cs
    else
      let args := match ar.pointer? cp with
        | some p => p.arguments
        | none => SortedSet.empty
      args.toList.foldl (fun cs arg =>
        if ar.isValid arg && !(ar.outermost? cs arg).all Qualifier.isWild then
          widenArgument ar cs arg dp
        else cs) cs
  | _, _ => cs

/-- Reconciles one definition entry with its declaration entry: the returns, then the parameters
position by position when there are as many. -/
def reconcilePair (ar : Arena) (cs : ConstraintStore) (def_ decl : Nat) : ConstraintStore :=
  match ar.function? def_, ar.function? decl with
  | some df, some cf =>
    let cs := reconcileReturns ar cs df cf
    if df.params.length != cf.params.length then cs
    else (df.params.zip cf.params).foldl (fun cs x => reconcileParam ar cs x.1 x.2) cs
  | _, _ => cs

/-- One round over every definition, in key order; tells whether a constraint was added. -/
def reconcile : ProgramM Bool := do
  let before := (← get).store.size
  let defs := (← get).functions.values.filter (·.isDefinition)
  for f in defs do
    let decl ← declarationOf f.key
    if decl != f.entry then
      modify fun p => { p with store := reconcilePair p.arena p.store f.entry decl }
  return (← get).store.size != before

end Program

end CheckedPointers
