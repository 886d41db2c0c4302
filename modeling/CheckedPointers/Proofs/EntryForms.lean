import CheckedPointers.Proofs.KeyRecords
import CheckedPointers.Proofs.FileCounts

/-!
# Entries keep the forms building gives them

Building, dereferencing and taking an address give entries of two forms only (`Entry.Formed`): a
pointer entry that embeds a function has a slot over it, since a bare function type is built as a
function entry, and each parameter of a function entry holds one alternative. Recording a
call-site argument changes no entry's form and nothing else touches the arena, so every operation
keeps the entries of an arena in these forms (`Program.KeepsFormed`).

The sets recorded at keys are made by inserting into and joining onto such sets, from the empty
one, so they ascend (`Program.Formed`); so does every set an expression evaluates to
(`Program.yieldsAscending_exprEntries`). Every session's program is formed
(`Session.Reachable.formed`).
-/

namespace CheckedPointers

theorem SortedSet.ascending_singleton {α : Type} [Ord α] (x : α) : (SortedSet.singleton x).Ascending :=
  List.pairwise_singleton _ x

/-- The forms of entry that building, dereferencing and taking an address give: a pointer with no
slot embeds no function, and each parameter of a function holds one alternative. -/
def Entry.Formed : Entry → Prop
  | .pointer pe => pe.slots = [] → pe.function = none
  | .function fe => ∀ s ∈ fe.params, ∃ x, s = SortedSet.singleton x

theorem Entry.formed_shape (e : Entry) : e.shape.Formed ↔ e.Formed := by
  cases e <;> rfl

namespace Arena

variable {a a' : Arena} {id : Nat} {e : Entry} {pe : PointerEntry} {fe : FunctionEntry}

/-- Every entry of the arena has a built form. -/
def Formed (a : Arena) : Prop := ∀ id e, a.get? id = some e → e.Formed

theorem formed_empty : Arena.empty.Formed := fun _ _ h => nomatch h

theorem Formed.pointer (h : a.Formed) (hp : a.pointer? id = some pe) (hs : pe.slots = []) :
    pe.function = none :=
  h id _ (pointer?_eq_some.1 hp) hs

theorem Formed.function (h : a.Formed) (hf : a.function? id = some fe) :
    ∀ s ∈ fe.params, ∃ x, s = SortedSet.singleton x :=
  h id _ (function?_eq_some.1 hf)

theorem Formed.alloc (h : a.Formed) (he : e.Formed) : (a.alloc e).2.Formed := by
  intro id e' he'
  rw [get?_alloc] at he'
  split at he'
  · cases he'
    exact he
  · exact h id e' he'

theorem Formed.of_extends (h : a.Formed) (h' : a'.Extends a) : a'.Formed := by
  intro id e he
  obtain ⟨e', he', hs⟩ := h'.shape id e he
  rw [← Entry.formed_shape, ← hs, Entry.formed_shape]
  exact h id e' he'

theorem Formed.recordArgument (h : a.Formed) (param arg : Nat) : (a.recordArgument param arg).Formed :=
  h.of_extends (recordArgument_extends a param arg)

mutual

theorem Formed.build {a : Arena} (h : a.Formed) (cs : ConstraintStore) (name : String) :
    ∀ (ty : TypeShape) (ann : Annotations), (a.build cs name ty ann).2.1.Formed
  | ⟨base, [], some f⟩, ann => by
    rw [build.eq_1]
    exact h.buildFunction cs name f ann
  | ⟨base, [], none⟩, ann => by
    rw [build_pointer a cs name base [] none ann (.inr rfl)]
    exact h.alloc fun _ => rfl
  | ⟨base, l :: ls, function⟩, ann => by
    rw [build_pointer a cs name base (l :: ls) function ann (.inl (List.cons_ne_nil l ls))]
    dsimp only
    have hslots := (foldl_levelStep (l :: ls) ([], cs)).1
    set r := (l :: ls).foldl levelStep ([], cs)
    refine (h.buildEmbedded (r.2.registerChain r.1) name function).alloc fun hnil => ?_
    -- a pointer with a level has a slot
    simp only [hslots, List.nil_append, List.length_cons, List.range'_succ] at hnil
    exact absurd hnil (List.cons_ne_nil _ _)

theorem Formed.buildEmbedded {a : Arena} (h : a.Formed) (cs : ConstraintStore) (name : String) :
    ∀ f : Option FunctionShape, (a.buildEmbedded cs name f).2.1.Formed
  | none => by
    rw [Arena.buildEmbedded]
    exact h
  | some f => by
    rw [buildEmbedded_some]
    exact h.buildFunction cs name f {}

theorem Formed.buildFunction {a : Arena} (h : a.Formed) (cs : ConstraintStore) (name : String) :
    ∀ (f : FunctionShape) (ann : Annotations), (a.buildFunction cs name f ann).2.1.Formed
  | ⟨ret, params, hasPrototype, variadic⟩, ann => by
    rw [buildFunction_eq]
    dsimp only
    have hr := h.build cs name ret { itype := ann.itype, boundsInterop := ann.boundsInterop }
    refine (hr.buildParams _ params).alloc fun s hs => ?_
    obtain ⟨x, -, rfl⟩ := List.mem_map.1 hs
    exact ⟨x, rfl⟩

theorem Formed.buildParams {a : Arena} (h : a.Formed) (cs : ConstraintStore) :
    ∀ ps : List ParamShape, (a.buildParams cs ps).2.1.Formed
  | [] => by
    rw [Arena.buildParams]
    exact h
  | ⟨pname, ty, key, itype⟩ :: rest => by
    rw [buildParams_cons]
    dsimp only
    exact (h.build cs pname ty { itype := itype }).buildParams _ rest

end

theorem Formed.dereference (h : a.Formed) {r : Option Nat × Arena} (hd : a.dereference id = .ok r) :
    r.2.Formed := by
  unfold Arena.dereference at hd
  split at hd
  · cases hd
  · split at hd
    · cases hd
      exact h
    · cases hd
      exact h
    · next v rest hne hslots =>
      cases hd
      exact h.alloc fun hnil => (hne hnil).elim
  · cases hd
    exact h

theorem Formed.addressOf (h : a.Formed) (cs : ConstraintStore) (id : Nat) :
    (a.addressOf cs id).2.1.Formed := by
  unfold Arena.addressOf
  dsimp only
  refine h.alloc fun hnil => ?_
  split at hnil <;> cases hnil

end Arena

namespace Program

variable {α β : Type} {p p' : Program}

/-- The program's entries have their built forms, and the sets recorded at its keys ascend. -/
structure Formed (p : Program) : Prop where
  arena : p.arena.Formed
  recorded : ∀ e ∈ p.entriesAt.toList, e.2.Ascending

/-- Run from a program whose entries have their built forms, the operation leaves entries of those
forms, whatever its outcome. -/
def KeepsFormed (m : ProgramM α) : Prop := ∀ p, p.arena.Formed → (stateOf (m.run p)).arena.Formed

theorem Formed.keeps {m : ProgramM α} (h : p.Formed) (hk : KeepsFormed m) (ht : KeepsTables m) :
    (stateOf (m.run p)).Formed :=
  ⟨hk p h.arena, by rw [(ht p).entriesAt]; exact h.recorded⟩

theorem Formed.run_ok {m : ProgramM α} {a : α} (h : p.Formed) (hk : KeepsFormed m) (ht : KeepsTables m)
    (hr : m.run p = .ok a p') : p'.Formed := by
  have h' := h.keeps hk ht
  rw [hr] at h'
  exact h'

section KeepsFormed

theorem keepsFormed_pure (a : α) : KeepsFormed (pure a : ProgramM α) := fun _ h => h

theorem keepsFormed_throw (e : Error) : KeepsFormed (throw e : ProgramM α) := fun _ h => h

theorem keepsFormed_get : KeepsFormed (get : ProgramM Program) := fun _ h => h

theorem keepsFormed_modify {f : Program → Program} (hf : ∀ q : Program, q.arena.Formed → (f q).arena.Formed) :
    KeepsFormed (modify f : ProgramM Unit) := hf

theorem keepsFormed_modify_of_arena {f : Program → Program} (hf : ∀ q, (f q).arena = q.arena) :
    KeepsFormed (modify f : ProgramM Unit) :=
  keepsFormed_modify fun q h => by rw [hf q]; exact h

theorem KeepsFormed.bind {x : ProgramM α} {f : α → ProgramM β} (hx : KeepsFormed x)
    (hf : ∀ a, KeepsFormed (f a)) : KeepsFormed (x >>= f) := by
  intro p h
  have h' := hx p h
  rw [run_bind]
  cases hr : x.run p with
  | ok a s =>
    rw [hr] at h'
    exact hf a s h'
  | error e s =>
    rw [hr] at h'
    exact h'

theorem keepsFormed_get_bind {f : Program → ProgramM β}
    (hf : ∀ p, p.arena.Formed → (stateOf ((f p).run p)).arena.Formed) : KeepsFormed (get >>= f) := by
  intro p h
  rw [run_bind, run_get]
  exact hf p h

theorem keepsFormed_forIn {l : List α} {init : β} {f : α → β → ProgramM (ForInStep β)}
    (hf : ∀ a b, KeepsFormed (f a b)) : KeepsFormed (forIn l init f) := by
  induction l generalizing init with
  | nil => exact keepsFormed_pure init
  | cons x xs ih =>
    rw [List.forIn_cons]
    refine (hf x init).bind fun r => ?_
    cases r with
    | done b => exact keepsFormed_pure b
    | yield b => exact ih

theorem keepsFormed_foldlM {l : List α} {init : β} {f : β → α → ProgramM β}
    (hf : ∀ b a, KeepsFormed (f b a)) : KeepsFormed (l.foldlM f init) := by
  induction l generalizing init with
  | nil => exact keepsFormed_pure init
  | cons x xs ih =>
    rw [List.foldlM_cons]
    exact (hf init x).bind fun b => ih

theorem keepsFormed_mapM {l : List α} {f : α → ProgramM β} (hf : ∀ a, KeepsFormed (f a)) :
    KeepsFormed (l.mapM f) := by
  induction l with
  | nil => exact keepsFormed_pure _
  | cons x xs ih =>
    rw [List.mapM_cons]
    exact (hf x).bind fun _ => ih.bind fun _ => keepsFormed_pure _

theorem keepsFormed_ite {c : Prop} [Decidable c] {x y : ProgramM α} (hx : KeepsFormed x)
    (hy : KeepsFormed y) : KeepsFormed (if c then x else y) := by
  split
  · exact hx
  · exact hy

end KeepsFormed

/-! ## Looking up declarations -/

theorem keepsFormed_synthesize (def_ : DeclKey) : KeepsFormed (synthesize def_) := by
  intro p h
  rcases synthesize_cases def_ p with ⟨id, -, hr⟩ | ⟨e, hr⟩ | ⟨f, -, -, hr⟩ <;> rw [hr]
  · exact h
  · exact h
  · -- the declaration is built from the definition's type
    show (forceWildOpt _ _ _ _).arena.Formed
    rw [arena_forceWildOpt]
    exact h.build _ _ _ _

theorem keepsFormed_declarationOf (key : DeclKey) : KeepsFormed (declarationOf key) := by
  unfold declarationOf outOfContextFunction
  refine keepsFormed_get_bind fun p h => ?_
  split
  · exact h
  · split
    · exact h
    · split
      · exact h
      · exact keepsFormed_synthesize key p h

theorem keepsFormed_paramOf (function : DeclKey) (index : Nat) (inContext : Bool) :
    KeepsFormed (paramOf function index inContext) := by
  unfold paramOf
  extract_lets -underBinder jp
  have hjp : ∀ fv, KeepsFormed (jp fv) := by
    intro fv
    unfold jp
    refine keepsFormed_get_bind fun p h => ?_
    split
    · exact h
    · split <;> exact h
  clear_value jp
  split
  · refine keepsFormed_get_bind fun p h => ?_
    split
    · exact ((keepsFormed_pure _).bind hjp) p h
    · exact ((keepsFormed_throw _).bind hjp) p h
  · exact (keepsFormed_declarationOf function).bind hjp

theorem keepsFormed_getVariable (key : DeclKey) (inContext : Bool) :
    KeepsFormed (getVariable key inContext) := by
  unfold getVariable
  refine keepsFormed_get_bind fun p h => ?_
  dsimp only
  split
  · exact h
  · split
    · exact ((keepsFormed_declarationOf key).bind fun _ => keepsFormed_pure _) p h
    · split
      · exact keepsFormed_paramOf _ _ _ p h
      · exact h

/-! ## Resolving expressions -/

theorem keepsFormed_dereferenceM (c : Nat) : KeepsFormed (dereferenceM c) := by
  unfold dereferenceM
  refine keepsFormed_get_bind fun p h => ?_
  split
  · next r a hd => exact h.dereference hd
  · exact h

theorem keepsFormed_addressOfM (c : Nat) : KeepsFormed (addressOfM c) :=
  keepsFormed_get_bind fun p h => h.addressOf p.store c

theorem keepsFormed_stringLiteral : KeepsFormed stringLiteral :=
  keepsFormed_get_bind fun _ h => h.alloc fun hnil => nomatch hnil

theorem keepsFormed_derefAll (cs : SortedSet Nat) : KeepsFormed (derefAll cs) := by
  unfold derefAll
  refine keepsFormed_foldlM fun out c => (keepsFormed_dereferenceM c).bind fun r => ?_
  cases r with
  | some d => exact keepsFormed_pure _
  | none => exact keepsFormed_pure _

mutual

theorem keepsFormed_exprEntries : ∀ e : Expr, KeepsFormed (exprEntries e)
  | .decl key inContext => by
    rw [exprEntries]
    exact keepsFormed_getVariable key inContext
  | .deref e => by
    rw [exprEntries]
    exact (keepsFormed_exprEntries e).bind keepsFormed_derefAll
  | .index e => by
    rw [exprEntries]
    exact (keepsFormed_exprEntries e).bind keepsFormed_derefAll
  | .addrOf e => by
    rw [exprEntries]
    exact (keepsFormed_exprEntries e).bind fun _ =>
      keepsFormed_foldlM fun _ c => (keepsFormed_addressOfM c).bind fun _ => keepsFormed_pure _
  | .call callee => by
    rw [exprEntries]
    exact (keepsFormed_exprEntries callee).bind fun _ => keepsFormed_get.bind fun _ =>
      keepsFormed_get.bind fun _ => keepsFormed_pure _
  | .stringLiteral => by
    rw [exprEntries]
    exact keepsFormed_stringLiteral.bind fun _ => keepsFormed_pure _
  | .conditional bs => by
    rw [exprEntries]
    exact keepsFormed_branchEntries bs
  | .null => by
    rw [exprEntries]
    exact keepsFormed_pure _
  | .other => by
    rw [exprEntries]
    exact keepsFormed_pure _

theorem keepsFormed_branchEntries : ∀ bs : List Expr, KeepsFormed (branchEntries bs)
  | [] => by
    rw [branchEntries]
    exact keepsFormed_pure _
  | b :: bs => by
    rw [branchEntries]
    exact (keepsFormed_exprEntries b).bind fun _ =>
      (keepsFormed_branchEntries bs).bind fun _ => keepsFormed_pure _

end

/-! ## Expressions evaluate to ascending sets -/

/-- From a formed program, the set the operation gives ascends. -/
def YieldsAscending (m : ProgramM (SortedSet Nat)) : Prop :=
  ∀ p, p.Formed → ∀ s p', m.run p = .ok s p' → s.Ascending

theorem YieldsAscending.bind {x : ProgramM α} {f : α → ProgramM (SortedSet Nat)} (hx : KeepsFormed x)
    (ht : KeepsTables x) (hf : ∀ a, YieldsAscending (f a)) : YieldsAscending (x >>= f) := by
  intro p h s p' hr
  obtain ⟨a, q, h₁, h₂⟩ := run_bind_ok hr
  exact hf a q (h.run_ok hx ht h₁) s p' h₂

theorem yieldsAscending_get_bind {f : Program → ProgramM (SortedSet Nat)}
    (hf : ∀ p, p.Formed → ∀ s p', (f p).run p = .ok s p' → s.Ascending) : YieldsAscending (get >>= f) := by
  intro p h s p' hr
  rw [run_bind, run_get] at hr
  exact hf p h s p' hr

theorem yieldsAscending_pure {s : SortedSet Nat} (hs : s.Ascending) : YieldsAscending (pure s) := by
  intro p _ s' p' hr
  cases hr
  exact hs

theorem yieldsAscending_foldlM {l : List α} {f : SortedSet Nat → α → ProgramM (SortedSet Nat)}
    (hf : ∀ out a p s p', out.Ascending → (f out a).run p = .ok s p' → s.Ascending) {init : SortedSet Nat}
    (hinit : init.Ascending) : YieldsAscending (l.foldlM f init) := by
  -- the accumulator ascends after each step, whatever the program
  suffices h : ∀ (l : List α) (init : SortedSet Nat), init.Ascending →
      ∀ p s p', (l.foldlM f init).run p = .ok s p' → s.Ascending from
    fun p _ => h l init hinit p
  intro l
  induction l with
  | nil =>
    intro init hinit p s p' hr
    cases hr
    exact hinit
  | cons a l ih =>
    intro init hinit p s p' hr
    rw [List.foldlM_cons] at hr
    obtain ⟨b, q, h₁, h₂⟩ := run_bind_ok hr
    exact ih b (hf init a p b q hinit h₁) q s p' h₂

theorem yieldsAscending_paramOf (function : DeclKey) (index : Nat) (inContext : Bool) :
    YieldsAscending (paramOf function index inContext) := by
  unfold paramOf
  extract_lets -underBinder jp
  have hjp : ∀ fv, YieldsAscending (jp fv) := by
    intro fv
    unfold jp
    refine yieldsAscending_get_bind fun p h s p' hr => ?_
    split at hr
    · cases hr
    · next f hf =>
      split at hr
      · next s' hs =>
        -- a parameter of a function entry holds one alternative
        cases hr
        obtain ⟨x, rfl⟩ := h.arena.function hf _ (List.mem_of_getElem? hs)
        exact SortedSet.ascending_singleton x
      · cases hr
  clear_value jp
  split
  · refine yieldsAscending_get_bind fun p h s p' hr => ?_
    split at hr
    · exact YieldsAscending.bind (keepsFormed_pure _) (keepsTables_pure _) hjp p h s p' hr
    · exact YieldsAscending.bind (keepsFormed_throw _) (keepsTables_throw _) hjp p h s p' hr
  · exact YieldsAscending.bind (keepsFormed_declarationOf function) (keepsTables_declarationOf function) hjp

theorem yieldsAscending_getVariable (key : DeclKey) (inContext : Bool) :
    YieldsAscending (getVariable key inContext) := by
  unfold getVariable
  refine yieldsAscending_get_bind fun p h s p' hr => ?_
  dsimp only at hr
  have hrec : ((p.entriesAt.find? key).getD SortedSet.empty).Ascending := by
    cases hk : p.entriesAt.find? key with
    | none => exact SortedSet.ascending_empty
    | some w =>
      obtain ⟨k, hmem, -⟩ := SortedMap.mem_of_find? hk
      exact h.recorded _ hmem
  split at hr
  · cases hr
    exact hrec
  · split at hr
    · -- a function seen from outside is its declaration alone
      obtain ⟨d, q, -, h₂⟩ := run_bind_ok hr
      cases h₂
      exact SortedSet.ascending_singleton d
    · split at hr
      · exact yieldsAscending_paramOf _ _ _ p h s p' hr
      · cases hr
        exact hrec

theorem yieldsAscending_derefAll (cs : SortedSet Nat) : YieldsAscending (derefAll cs) := by
  unfold derefAll
  refine yieldsAscending_foldlM (fun out c p s p' hout hr => ?_) SortedSet.ascending_empty
  obtain ⟨r, q, -, h₂⟩ := run_bind_ok hr
  cases r with
  | some d =>
    cases h₂
    exact hout.insert d
  | none =>
    cases h₂
    exact hout

mutual

theorem yieldsAscending_exprEntries : ∀ e : Expr, YieldsAscending (exprEntries e)
  | .decl key inContext => by
    rw [exprEntries]
    exact yieldsAscending_getVariable key inContext
  | .deref e => by
    rw [exprEntries]
    exact YieldsAscending.bind (keepsFormed_exprEntries e) (keepsTables_exprEntries e) yieldsAscending_derefAll
  | .index e => by
    rw [exprEntries]
    exact YieldsAscending.bind (keepsFormed_exprEntries e) (keepsTables_exprEntries e) yieldsAscending_derefAll
  | .addrOf e => by
    rw [exprEntries]
    refine YieldsAscending.bind (keepsFormed_exprEntries e) (keepsTables_exprEntries e) fun _ =>
      yieldsAscending_foldlM (fun out c p s p' hout hr => ?_) SortedSet.ascending_empty
    obtain ⟨d, q, -, h₂⟩ := run_bind_ok hr
    cases h₂
    exact hout.insert d
  | .call callee => by
    rw [exprEntries]
    refine YieldsAscending.bind (keepsFormed_exprEntries callee) (keepsTables_exprEntries callee) fun _ =>
      yieldsAscending_get_bind fun p _ s p' hr => ?_
    rw [run_bind, run_get] at hr
    cases hr
    -- the returns of the functions reached, joined onto the empty set
    refine foldl_keeps (P := SortedSet.Ascending) (fun f _ out hout => ?_) _ SortedSet.ascending_empty
    split
    · exact hout.union _
    · exact hout
  | .stringLiteral => by
    rw [exprEntries]
    intro p _ s p' hr
    obtain ⟨d, q, -, h₂⟩ := run_bind_ok hr
    cases h₂
    exact SortedSet.ascending_singleton d
  | .conditional bs => by
    rw [exprEntries]
    exact yieldsAscending_branchEntries bs
  | .null => by
    rw [exprEntries]
    exact yieldsAscending_pure SortedSet.ascending_empty
  | .other => by
    rw [exprEntries]
    exact yieldsAscending_pure SortedSet.ascending_empty

theorem yieldsAscending_branchEntries : ∀ bs : List Expr, YieldsAscending (branchEntries bs)
  | [] => by
    rw [branchEntries]
    exact yieldsAscending_pure SortedSet.ascending_empty
  | b :: bs => by
    rw [branchEntries]
    intro p h u p' hr
    obtain ⟨s, q, h₁, h₂⟩ := run_bind_ok hr
    obtain ⟨t, q', -, h₃⟩ := run_bind_ok h₂
    cases h₃
    exact (yieldsAscending_exprEntries b p h s q h₁).union t

end

/-! ## Relating entries -/

theorem keepsFormed_updateStore (f : Arena → ConstraintStore → ConstraintStore) :
    KeepsFormed (updateStore f) :=
  keepsFormed_modify_of_arena fun _ => rfl

theorem keepsFormed_bind (formal actual : SortedSet Nat) (reason : String) (loc : Option SourceLoc) :
    KeepsFormed (bind formal actual reason loc) :=
  keepsFormed_modify fun q h =>
    foldl_keeps (P := fun q : Program => q.arena.Formed) (fun f _ q hq =>
      foldl_keeps (P := fun q : Program => q.arena.Formed) (fun a _ _ hq => hq.recordArgument f a) q hq) q h

theorem keepsFormed_addCall (callee : Expr) (args : List Expr) (result : Option Expr) (loc : Option SourceLoc) :
    KeepsFormed (addCall callee args result loc) := by
  unfold addCall
  refine (keepsFormed_exprEntries callee).bind fun _ => keepsFormed_get.bind fun _ =>
    (keepsFormed_mapM keepsFormed_exprEntries).bind fun _ => ?_
  dsimp only
  split <;> [refine (keepsFormed_exprEntries _).bind fun resultSet => ?_;
    refine (keepsFormed_pure _).bind fun resultSet => ?_]
  -- what follows is the same whether or not the call's value is stored
  all_goals
    split
    · exact (keepsFormed_forIn fun s _ => (keepsFormed_updateStore _).bind
        fun _ => keepsFormed_pure _).bind fun _ => keepsFormed_pure _
    · refine (keepsFormed_forIn fun f _ => keepsFormed_get.bind fun q => ?_).bind fun _ => keepsFormed_pure _
      split
      · exact keepsFormed_pure _
      · refine (keepsFormed_forIn fun x _ => ?_).bind fun _ =>
          (keepsFormed_bind _ _ _ _).bind fun _ => keepsFormed_pure _
        obtain ⟨a, i⟩ := x
        dsimp only
        split
        · exact (keepsFormed_bind _ _ _ _).bind fun _ => keepsFormed_pure _
        · refine keepsFormed_get.bind fun _ => ?_
          split
          · exact (keepsFormed_updateStore _).bind fun _ => keepsFormed_pure _
          · exact keepsFormed_pure _

theorem keepsFormed_addFact (fact : Fact) : KeepsFormed (addFact fact) := by
  cases fact with
  | declare d => exact keepsFormed_pure _
  | assign lhs rhs loc =>
    exact (keepsFormed_exprEntries lhs).bind fun _ => (keepsFormed_exprEntries rhs).bind fun _ =>
      keepsFormed_updateStore _
  | call callee args result loc => exact keepsFormed_addCall callee args result loc
  | ret function e loc =>
    refine (keepsFormed_getVariable function true).bind fun _ => (keepsFormed_exprEntries e).bind
      fun _ => (keepsFormed_forIn fun f _ => keepsFormed_get.bind fun _ => ?_).bind fun _ =>
        keepsFormed_pure _
    split
    · exact (keepsFormed_updateStore _).bind fun _ => keepsFormed_pure _
    · exact keepsFormed_pure _
  | cast e src dst loc =>
    exact keepsFormed_ite ((keepsFormed_exprEntries e).bind fun _ => keepsFormed_updateStore _)
      (keepsFormed_pure _)
  | arithmetic e loc =>
    refine (keepsFormed_exprEntries e).bind fun _ =>
      (keepsFormed_forIn fun c _ => keepsFormed_get.bind fun _ => ?_).bind fun _ => keepsFormed_pure _
    split
    · exact (keepsFormed_updateStore _).bind fun _ => keepsFormed_pure _
    · exact keepsFormed_pure _

/-! ## Recording declarations -/

theorem ascending_alter {m : SortedMap DeclKey (SortedSet Nat)} (hm : ∀ e ∈ m.toList, e.2.Ascending)
    (k : DeclKey) {f : Option (SortedSet Nat) → SortedSet Nat} (hnone : (f none).Ascending)
    (hsome : ∀ w : SortedSet Nat, w.Ascending → (f (some w)).Ascending) :
    ∀ e ∈ (m.alter k f).toList, e.2.Ascending := by
  intro e he
  rcases SortedMap.mem_alter_snd he with he | he | ⟨k', w, hw, he⟩
  · exact hm e he
  · rw [he]
    exact hnone
  · rw [he]
    exact hsome w (hm _ hw)

theorem Formed.buildEntry (h : p.Formed) (name : String) (ty : TypeShape) (ann : Annotations) :
    (p.buildEntry name ty ann).2.Formed :=
  ⟨h.arena.build _ _ _ _, h.recorded⟩

theorem Formed.forceWildOpt (h : p.Formed) (o : Option String) (id : Nat) (loc : Option SourceLoc) :
    (forceWildOpt o id loc p).Formed := by
  cases o
  · exact h
  · exact ⟨h.arena, h.recorded⟩

theorem Formed.recordAt (h : p.Formed) (key : DeclKey) (id : Nat) : (p.recordAt key id).Formed :=
  ⟨h.arena, ascending_alter h.recorded key (SortedSet.ascending_empty.insert id) fun _ hw => hw.insert id⟩

theorem Formed.noteBody (h : p.Formed) (d : DeclFact) : (noteBody d p).Formed := ⟨h.arena, h.recorded⟩

theorem Formed.recordParams (h : p.Formed) (d : DeclFact) (id : Nat) : (recordParams d id p).Formed := by
  unfold Program.recordParams
  split
  · -- each parameter key gains the alternatives of its position
    refine foldl_keeps (P := Formed) (fun x _ q hq => ?_) p h
    unfold Program.recordParam
    split
    · exact ⟨hq.arena, ascending_alter hq.recorded _ (SortedSet.ascending_empty.union _) fun w hw => hw.union _⟩
    · exact hq
  · exact h

theorem Formed.addFunction (h : p.Formed) (d : DeclFact) (ann : Annotations) (forced : Option String) :
    (p.addFunction d ann forced).Formed := by
  rw [addFunction_eq]
  set b := p.buildEntry d.name d.ty ann
  -- the entry, then its key and its parameters' keys, then the function under its key
  have h' := ((((h.buildEntry d.name d.ty ann).forceWildOpt forced b.1 (some d.key.loc)).recordAt d.key
    b.1).noteBody d).recordParams d b.1
  exact ⟨h'.arena, h'.recorded⟩

theorem Formed.addDeclaration (h : p.Formed) (d : DeclFact) : (p.addDeclaration d).Formed := by
  unfold Program.addDeclaration
  generalize hp0 : ({ p with files := p.files.alter d.key.file fun r => r.getD true && d.rewritable } :
    Program) = p0
  have h0 : p0.Formed := hp0 ▸ ⟨h.arena, h.recorded⟩
  dsimp only
  split
  · exact h0.addFunction d _ _
  split
  · -- a parameter of a recorded function: only constraints are added
    split
    · exact ⟨h0.arena, h0.recorded⟩
    · exact h0
  split
  · exact h0
  -- any other declaration with a level builds one pointer entry and records it at its key
  set ann : Annotations := { itype := d.itype, boundsInterop := d.boundsInterop, hasBody := d.isDefinition }
  have h1 := ((h0.buildEntry d.name d.ty ann).forceWildOpt (DeclFact.forcedReason d)
    (p0.buildEntry d.name d.ty ann).1 (some d.key.loc)).recordAt d.key (p0.buildEntry d.name d.ty ann).1
  split
  · exact ⟨h1.arena, h1.recorded⟩
  · exact h1

theorem Formed.addFacts (h : p.Formed) (facts : List Fact) : (stateOf ((addFacts facts).run p)).Formed := by
  unfold Program.addFacts
  rw [run_bind, run_modify]
  refine Formed.keeps ?_ ((keepsFormed_forIn fun f _ => (keepsFormed_addFact f).bind fun _ =>
    keepsFormed_pure _).bind fun _ => keepsFormed_pure _)
    ((keepsTables_forIn fun f _ => (keepsTables_addFact f).bind fun _ => keepsTables_pure _).bind fun _ =>
      keepsTables_pure _)
  refine foldl_keeps (P := Formed) (fun f _ q hq => ?_) p h
  cases f with
  | declare d => exact hq.addDeclaration d
  | _ => exact hq

/-! ## Linking and reconciling

Linking and reconciling add constraints only, but for the declarations they make up. -/

theorem keepsFormed_linkGroups : KeepsFormed linkGroups := by
  unfold linkGroups
  refine keepsFormed_get.bind fun _ => (keepsFormed_modify_of_arena (arena_foldl fun x q => ?_)).bind
    fun _ => keepsFormed_get.bind fun _ => (keepsFormed_modify_of_arena (arena_foldl fun s q => ?_)).bind
      fun _ => keepsFormed_pure _
  · obtain ⟨k, s⟩ := x
    exact arena_equateInSequence q s.toList (some k.loc)
  · exact arena_equateInSequence q s.toList none

theorem keepsFormed_linkFunctions : KeepsFormed linkFunctions := by
  unfold linkFunctions
  refine keepsFormed_get.bind fun _ => ?_
  dsimp only
  split <;> [refine keepsFormed_get.bind fun _ => (keepsFormed_forIn fun def_ byName => ?_).bind
      fun byName => (keepsFormed_forIn fun decls pairs => ?_).bind fun pairs => ?_; skip]
  · refine keepsFormed_get.bind fun _ => keepsFormed_ite ?_ (keepsFormed_pure _)
    exact (keepsFormed_declarationOf def_).bind fun _ => keepsFormed_pure _
  · exact (keepsFormed_modify_of_arena fun q => arena_equateInSequence q decls none).bind fun _ =>
      keepsFormed_pure _
  -- the extern policy, whichever way the declarations were equated
  all_goals
    refine keepsFormed_get.bind fun _ => (keepsFormed_forIn fun name _ => ?_).bind fun _ => keepsFormed_pure _
    exact keepsFormed_get.bind fun _ => (keepsFormed_modify_of_arena (arena_foldl fun id q =>
      arena_applyExternPolicy q id)).bind fun _ => keepsFormed_pure _

theorem keepsFormed_link : KeepsFormed link :=
  keepsFormed_linkGroups.bind fun _ => keepsFormed_linkFunctions.bind fun _ => keepsFormed_pure _

theorem keepsFormed_reconcile : KeepsFormed reconcile := by
  unfold reconcile
  refine keepsFormed_get.bind fun _ => keepsFormed_get.bind fun _ =>
    (keepsFormed_forIn fun f _ => ?_).bind fun _ => keepsFormed_get.bind fun _ => keepsFormed_pure _
  refine (keepsFormed_declarationOf f.key).bind fun _ => keepsFormed_ite ?_ (keepsFormed_pure _)
  exact KeepsFormed.bind (keepsFormed_modify fun _ h => h) fun _ => keepsFormed_pure _

end Program

theorem stateOf_bind_of {σ α β : Type} {P : σ → Prop} {x : EStateM Error σ α}
    {f : α → EStateM Error σ β} {s : σ} (hx : P (stateOf (x.run s)))
    (hf : ∀ a s', x.run s = .ok a s' → P s' → P (stateOf ((f a).run s'))) :
    P (stateOf ((x >>= f).run s)) := by
  rw [run_bind]
  cases hr : x.run s with
  | ok a s' =>
    rw [hr] at hx
    exact hf a s' hr hx
  | error e s' =>
    rw [hr] at hx
    exact hx

namespace Session

open Program

variable {s s' : Session} {mayFail : Session → Prop} {o : Options}

theorem stateOf_onProgram {α : Type} (m : ProgramM α) (s : Session) :
    stateOf ((onProgram m).run s) = { s with program := stateOf (m.run s.program) } := by
  rw [run_onProgram]
  cases m.run s.program <;> rfl

theorem formed_bind {α β : Type} {x : SessionM α} {f : α → SessionM β}
    (hx : (stateOf (x.run s)).program.Formed)
    (hf : ∀ a s', x.run s = .ok a s' → s'.program.Formed → (stateOf ((f a).run s')).program.Formed) :
    (stateOf ((x >>= f).run s)).program.Formed :=
  stateOf_bind_of (P := fun s : Session => s.program.Formed) hx hf

theorem formed_create (o : Options) : (create o).program.Formed :=
  ⟨Arena.formed_empty, fun _ h => nomatch h⟩

theorem solveStore_formed (h : s.program.Formed) : (stateOf (solveStore.run s)).program.Formed := by
  unfold solveStore
  rw [run_bind, run_get]
  dsimp only
  split
  · exact ⟨h.arena, h.recorded⟩
  · exact h

theorem reconcileRounds_formed (n : Nat) :
    ∀ (d ps : Nat) (s : Session), s.program.Formed → (stateOf ((reconcileRounds n d ps).run s)).program.Formed := by
  induction n with
  | zero =>
    intro d ps s h
    exact h
  | succ n ih =>
    intro d ps s h
    unfold reconcileRounds
    refine formed_bind ?_ fun b s1 _ h1 => ?_
    · rw [stateOf_onProgram]
      exact h.keeps keepsFormed_reconcile keepsTables_reconcile
    cases b with
    | false => exact h1
    | true =>
      rw [if_neg (by decide)]
      exact formed_bind (solveStore_formed h1) fun more s2 _ h2 => ih _ _ s2 h2

section Table

variable [UnifyTable]

theorem solve_formed (h : s.program.Formed) : (stateOf (solve.run s)).program.Formed := by
  unfold solve
  refine formed_bind h fun s0 s1 _ h1 => ?_
  split
  · exact h1
  refine formed_bind (solveStore_formed h1) fun k s2 _ h2 => formed_bind h2 fun s3 s4 _ h4 => ?_
  -- clustering the wild slots leaves the program alone
  exact formed_bind (reconcileRounds_formed _ 0 k s4 h4) fun r s5 _ h5 => h5

/-- Every change keeps the program formed. -/
theorem Step.formed (h : Step mayFail s s') (hp : s.program.Formed) : s'.program.Formed := by
  cases h with
  | build facts _ =>
    unfold Session.build
    refine formed_bind ?_ fun _ s1 _ h1 => ?_
    · rw [stateOf_onProgram]
      exact hp.addFacts facts
    refine formed_bind ?_ fun _ s2 _ h2 => h2
    rw [stateOf_onProgram]
    exact h1.keeps keepsFormed_link keepsTables_link
  | solve => exact solve_formed hp
  | commit v scope sp hsp => exact ⟨hp.arena, hp.recorded⟩

theorem Reachable.formed (h : Reachable mayFail o s) : s.program.Formed :=
  h.invariant (formed_create o) fun _ _ _ step hp => step.formed hp

end Table

end Session

end CheckedPointers
