import CheckedPointers.Constraint.Views
import CheckedPointers.Error
/-! # The constraint store

The store owns every solver slot and every constraint. Slots are numbered from 0 in creation
order; a slot is registered when its number is below `env.size`, and `env` holds its current
qualifier. Constraints are numbered from 0 in insertion order, and a number is never reused:
removing a constraint leaves a gap, and a rejected duplicate takes no number. Chains are lists of
slots, outermost first, whose `wild`-ness is indivisible.

The live constraints are kept as `(id, constraint)` pairs in ascending id order. Beside them the
store keeps an index from each live relation to its id, which deduplicates additions and finds the
constraint forcing a slot to `wild`, and the owners of each slot, the ids of the constraints that
mention it. Every addition and removal updates all three, and the store carries the proof that
they agree (`StoreViews`). -/

namespace CheckedPointers

/-- Slots with their current qualifiers, live constraints by id with their index and owners,
chains, and the next id. -/
structure ConstraintStore where
  env : Array Qualifier
  entries : List (Nat × Constraint)
  index : KeyMap Relation Nat
  owners : KeyMap Nat (SortedSet Nat)
  chains : List (List Nat)
  nextId : Nat
  views : StoreViews entries index owners nextId

namespace ConstraintStore

def empty : ConstraintStore := ⟨#[], [], .empty, .empty, [], 0, .empty⟩

instance : Inhabited ConstraintStore := ⟨empty⟩

/-! ## Slots -/

/-- Creates a slot at `ptr` and gives its number. -/
def fresh (cs : ConstraintStore) : Nat × ConstraintStore :=
  (cs.env.size, { cs with env := cs.env.push .ptr })

/-- Registers every slot up to and including `v`. -/
def getOrCreate (cs : ConstraintStore) (v : Nat) : ConstraintStore :=
  { cs with env := cs.env ++ Array.replicate (v + 1 - cs.env.size) .ptr }

def numVars (cs : ConstraintStore) : Nat := cs.env.size

def isRegistered (cs : ConstraintStore) (v : Nat) : Bool := v < cs.env.size

/-- The current qualifier of a slot; an unregistered slot reads as `ptr`. -/
def assignment (cs : ConstraintStore) (v : Nat) : Qualifier := cs.env.getD v .ptr

def valueOf (cs : ConstraintStore) : Atom → Qualifier
  | .const q => q
  | .var v => cs.assignment v

def isWild (cs : ConstraintStore) (v : Nat) : Bool := (cs.assignment v).isWild

/-- Every slot currently solved to `wild`, ascending. -/
def wildVars (cs : ConstraintStore) : List Nat :=
  (List.range cs.env.size).filter cs.isWild

/-- Puts every slot back to `ptr`. -/
def reset (cs : ConstraintStore) : ConstraintStore :=
  { cs with env := Array.replicate cs.env.size .ptr }

/-- Registers a chain of two or more slots; shorter chains say nothing and are dropped. -/
def registerChain (cs : ConstraintStore) (chain : List Nat) : ConstraintStore :=
  if 1 < chain.length then { cs with chains := cs.chains ++ [chain] } else cs

/-! ## Constraints -/

/-- The id of the live constraint with this relation, if any. -/
def idOf? (cs : ConstraintStore) (r : Relation) : Option Nat := cs.index.find? r

/-- Records a constraint whose relation the index does not hold, under the next id. -/
def push (cs : ConstraintStore) (c : Constraint) (h : cs.index.find? c.relation = none) : ConstraintStore :=
  { cs with
    entries := cs.entries ++ [(cs.nextId, c)]
    index := cs.index.insert c.relation cs.nextId
    owners := addOwners cs.owners cs.nextId c.relation.vars
    nextId := cs.nextId + 1
    views := cs.views.push c h }

/-- Adds a constraint and gives its id. A relation between two constants carries no
information and a relation already present keeps its first reason; both give `none`. -/
def add (cs : ConstraintStore) (r : Relation) (reason : String) (loc : Option SourceLoc) :
    Option Nat × ConstraintStore :=
  match r with
  | .eq (.const _) (.const _) => (none, cs)
  | _ =>
    match h : cs.idOf? r with
    | some _ => (none, cs)
    | none => (some cs.nextId, cs.push ⟨r, reason, loc⟩ h)

/-- Adds `lhs == rhs`, normalized; tells whether it is new. -/
def addEq (cs : ConstraintStore) (lhs rhs : Atom) (reason : String) (loc : Option SourceLoc) :
    Bool × ConstraintStore :=
  let (id, cs) := cs.add (Relation.mkEq lhs rhs) reason loc
  (id.isSome, cs)

/-- Adds `v >= bound`; tells whether it is new. -/
def addGeq (cs : ConstraintStore) (v : Nat) (bound : Qualifier) (reason : String)
    (loc : Option SourceLoc) : Bool × ConstraintStore :=
  let (id, cs) := cs.add (.geq v bound) reason loc
  (id.isSome, cs)

/-- Forces `v` to `wild`; tells whether the constraint is new. -/
def addWild (cs : ConstraintStore) (v : Nat) (reason : String) (loc : Option SourceLoc) :
    Bool × ConstraintStore :=
  cs.addGeq v .wild reason loc

def get? (cs : ConstraintStore) (id : Nat) : Option Constraint :=
  (cs.entries.find? fun e => e.1 == id).map Prod.snd

def size (cs : ConstraintStore) : Nat := cs.entries.length

/-- The ids of the live constraints that mention `v`, ascending. -/
def constraintsOf (cs : ConstraintStore) (v : Nat) : List Nat :=
  ((cs.owners.find? v).map SortedSet.toList).getD []

/-- The constraint forcing `v` to `wild` directly: `v >= Wild` if present, else `v == Wild`. -/
def findWild? (cs : ConstraintStore) (v : Nat) : Option Nat :=
  (cs.idOf? (.geq v .wild)).or (cs.idOf? (Relation.mkEq (.var v) (.const .wild)))

/-- Drops the live constraint `(id, c)` from the constraints, the index and the owners. -/
def drop (cs : ConstraintStore) (id : Nat) (c : Constraint) (h : (id, c) ∈ cs.entries) : ConstraintStore :=
  { cs with
    entries := cs.entries.filter fun e => e.1 != id
    index := cs.index.erase c.relation
    owners := dropOwners cs.owners id c.relation.vars
    views := cs.views.drop h }

/-- Removes one constraint and gives it back. -/
def remove (cs : ConstraintStore) (id : Nat) : Option Constraint × ConstraintStore :=
  match h : cs.get? id with
  | none => (none, cs)
  | some c => (some c, cs.drop id c (StoreViews.mem_of_find?_id h))

/-- Removes every constraint with exactly this reason, one at a time, and gives their ids,
ascending. -/
def removeReason (cs : ConstraintStore) (reason : String) : List Nat × ConstraintStore :=
  let ids := (cs.entries.filter fun e => e.2.reason == reason).map Prod.fst
  (ids, ids.foldl (fun cs id => (cs.remove id).2) cs)

/-! ## Solving -/

/-- The first unregistered slot, looking at constraints in id order and then at chains. -/
def sanity (cs : ConstraintStore) : Except Error Unit :=
  let bad := cs.entries.findSome? fun e =>
    (e.2.relation.vars.find? fun v => !cs.isRegistered v).map fun v => Error.unregisteredAtom (some e.1) v
  match bad with
  | some err => .error err
  | none =>
    match cs.chains.findSome? (fun ch => ch.find? fun v => !cs.isRegistered v) with
    | some v => .error (.unregisteredAtom none v)
    | none => .ok ()

/-- Raises an atom to at least `q`; constants never move. Tells whether anything rose. -/
def raise (env : Array Qualifier) (a : Atom) (q : Qualifier) : Array Qualifier × Bool :=
  match a with
  | .const _ => (env, false)
  | .var v =>
    let cur := env.getD v .ptr
    if cur.height < q.height && v < env.size then (env.set! v q, true) else (env, false)

/-- The current qualifier of an atom in `env`. -/
def read (env : Array Qualifier) : Atom → Qualifier
  | .const q => q
  | .var v => env.getD v .ptr

/-- One constraint's step: an equality raises both sides to their join, a bound raises its
slot. -/
def stepRelation (env : Array Qualifier) : Relation → Array Qualifier × Bool
  | .eq l r =>
    let j := (read env l).join (read env r)
    let (env, c1) := raise env l j
    let (env, c2) := raise env r j
    (env, c1 || c2)
  | .geq v q => raise env (.var v) q

/-- A chain whose outermost slot is `wild` drags every slot of it to `wild`. -/
def stepChain (env : Array Qualifier) (chain : List Nat) : Array Qualifier × Bool :=
  match chain with
  | [] => (env, false)
  | v :: rest =>
    if (env.getD v .ptr).isWild then
      rest.foldl (fun (acc : Array Qualifier × Bool) w =>
        let (e, c) := raise acc.1 (.var w) .wild
        (e, acc.2 || c)) (env, false)
    else (env, false)

/-- One pass: every constraint in id order, then every chain in registration order. -/
def pass (cs : ConstraintStore) (env : Array Qualifier) : Array Qualifier × Bool :=
  let afterConstraints := cs.entries.foldl (fun (acc : Array Qualifier × Bool) e =>
    let (env, c) := stepRelation acc.1 e.2.relation
    (env, acc.2 || c)) (env, false)
  cs.chains.foldl (fun (acc : Array Qualifier × Bool) ch =>
    let (env, c) := stepChain acc.1 ch
    (env, acc.2 || c)) afterConstraints

/-- Passes until one changes nothing, counting passes; `fuel` bounds the passes that change
something. -/
def iterate (cs : ConstraintStore) : Nat → Array Qualifier → Nat → Array Qualifier × Nat
  | fuel, env, passes =>
    let (env', changed) := cs.pass env
    if changed then
      match fuel with
      | 0 => (env', passes + 1)
      | n + 1 => iterate cs n env' (passes + 1)
    else (env', passes + 1)

/-- What one solve did: the passes it made (the last one changed nothing) and the number of slots
whose qualifier differs from before. -/
structure SolveStats where
  passes : Nat
  changed : Nat
  deriving DecidableEq, Repr

/-- The number of positions at which two environments differ. -/
def countChanged (before after : Array Qualifier) : Nat :=
  ((before.toList.zip after.toList).filter fun p => p.1 != p.2).length

/-- Runs to a fixpoint from the current qualifiers. Each pass that changes something raises the
sum of heights, which is at most `3 * numVars`, so that many passes of fuel suffice. -/
def solve (cs : ConstraintStore) : Except Error (SolveStats × ConstraintStore) := do
  cs.sanity
  let (env, passes) := cs.iterate (3 * cs.env.size + 1) cs.env 0
  return (⟨passes, countChanged cs.env env⟩, { cs with env := env })

end ConstraintStore

end CheckedPointers
