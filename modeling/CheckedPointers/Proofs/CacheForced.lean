import CheckedPointers.Proofs.KeyRecords
/-!
# Made-up declarations are forced as their functions are

A definition seen from a call site with no declaration recorded gets one made up from its type,
once per unique key `file:line:name` (`Program.synthesize`), and forced to `wild` when the
function recorded at the key it was made for is. The column is not part of the unique key, so
definitions that differ only in column share one made-up declaration, the first one made.

So a made-up declaration is forced whenever every function recorded under its unique key is
forced (`Program.CacheForced`). Making one up is the only change to the made-up declarations, and
every operation only grows the program, so every operation keeps this once the declarations are
recorded (`Program.KeepsCache`): resolving expressions, relating them, linking and reconciling,
and so building and solving a session.
-/

namespace CheckedPointers

open ConstraintStore

namespace Program

variable {p p' : Program} {α β : Type}

/-- Every declaration made up under a unique key that only forced functions share is forced to
`wild` throughout. -/
def CacheForced (p : Program) : Prop :=
  ∀ u id, p.synthesized.find? u = some id →
    (∀ k f, p.functions.find? k = some f → k.uniqueKey = u → f.forcedWild.isSome) →
      p.arena.WildForced p.store id

theorem CacheForced.growsOnly (h : p.CacheForced) (hw : p.Wf) (hg : GrowsOnly p p')
    (hs : p'.synthesized = p.synthesized) : p'.CacheForced := by
  intro u id hid hfun
  rw [hs] at hid
  -- a made-up declaration is chained, so it is in the arena
  have hlt : id < p.arena.size := by
    obtain ⟨u', hu', -⟩ := SortedMap.mem_of_find? hid
    exact (hw.synthesized _ hu').lt_size
  refine ((h u id hid fun k f hf => hfun k f ?_).mono hg.entries).extend hg.arena hlt
  rw [hg.tables.functions]
  exact hf

/-- Run from a well-formed program whose made-up declarations are forced as their functions are,
the operation keeps the invariants, only grows the program and leaves its made-up declarations so
too, whatever its outcome. -/
def KeepsCache (m : ProgramM α) : Prop :=
  ∀ p, p.Wf → p.CacheForced → KeepsAt p m ∧ (stateOf (m.run p)).CacheForced

theorem keepsCache_of {m : ProgramM α} (hk : Keeps m) (ht : KeepsTables m)
    (hs : ∀ p, (stateOf (m.run p)).synthesized = p.synthesized) : KeepsCache m :=
  fun p hw h => ⟨hk p hw, h.growsOnly hw (growsOnly_of_keeps hk ht hw) (hs p)⟩

theorem keepsCache_modify {f : Program → Program} (hf : Preserves f) (ht : ∀ q, SameTables q (f q))
    (hs : ∀ q, (f q).synthesized = q.synthesized) : KeepsCache (modify f : ProgramM Unit) :=
  keepsCache_of (keeps_modify hf) (keepsTables_modify ht) hs

section KeepsCache

theorem keepsCache_pure (a : α) : KeepsCache (pure a : ProgramM α) :=
  fun p hw h => ⟨keeps_pure a p hw, h⟩

theorem keepsCache_throw (e : Error) : KeepsCache (throw e : ProgramM α) :=
  fun p hw h => ⟨keeps_throw e p hw, h⟩

theorem keepsCache_get : KeepsCache (get : ProgramM Program) :=
  fun p hw h => ⟨keeps_get p hw, h⟩

theorem KeepsCache.bind {x : ProgramM α} {f : α → ProgramM β} (hx : KeepsCache x)
    (hf : ∀ a, KeepsCache (f a)) : KeepsCache (x >>= f) := by
  intro p hw h
  obtain ⟨⟨hw₁, he₁⟩, h₁⟩ := hx p hw h
  unfold KeepsAt
  rw [run_bind]
  cases hr : x.run p with
  | ok a s =>
    rw [hr, stateOf_ok] at hw₁ he₁ h₁
    obtain ⟨⟨hw₂, he₂⟩, h₂⟩ := hf a s hw₁ h₁
    exact ⟨⟨hw₂, he₁.trans he₂⟩, h₂⟩
  | error e s =>
    rw [hr] at hw₁ he₁ h₁
    exact ⟨⟨hw₁, he₁⟩, h₁⟩

theorem keepsCache_get_bind {f : Program → ProgramM β}
    (hf : ∀ p, p.Wf → p.CacheForced → KeepsAt p (f p) ∧ (stateOf ((f p).run p)).CacheForced) :
    KeepsCache (get >>= f) := by
  intro p hw h
  unfold KeepsAt
  rw [run_bind, run_get]
  exact hf p hw h

theorem keepsCache_forIn {l : List α} {init : β} {f : α → β → ProgramM (ForInStep β)}
    (hf : ∀ a b, KeepsCache (f a b)) : KeepsCache (forIn l init f) := by
  induction l generalizing init with
  | nil => exact keepsCache_pure init
  | cons x xs ih =>
    rw [List.forIn_cons]
    refine (hf x init).bind fun r => ?_
    cases r with
    | done b => exact keepsCache_pure b
    | yield b => exact ih

theorem keepsCache_foldlM {l : List α} {init : β} {f : β → α → ProgramM β}
    (hf : ∀ b a, KeepsCache (f b a)) : KeepsCache (l.foldlM f init) := by
  induction l generalizing init with
  | nil => exact keepsCache_pure init
  | cons x xs ih =>
    rw [List.foldlM_cons]
    exact (hf init x).bind fun b => ih

theorem keepsCache_mapM {l : List α} {f : α → ProgramM β} (hf : ∀ a, KeepsCache (f a)) :
    KeepsCache (l.mapM f) := by
  rw [List.mapM_eq_reverse_foldlM_cons]
  exact (keepsCache_foldlM fun b a => (hf a).bind fun c => keepsCache_pure (c :: b)).bind
    fun l => keepsCache_pure _

theorem keepsCache_ite {c : Prop} [Decidable c] {x y : ProgramM α} (hx : KeepsCache x)
    (hy : KeepsCache y) : KeepsCache (if c then x else y) := by
  split
  · exact hx
  · exact hy

end KeepsCache

/-! ## Looking up declarations -/

theorem keepsCache_synthesize (def_ : DeclKey) : KeepsCache (synthesize def_) := by
  intro p hw h
  refine ⟨keeps_synthesize def_ p hw, ?_⟩
  have he := (keeps_synthesize def_ p hw).2
  rcases synthesize_cases def_ p with ⟨id, -, hr⟩ | ⟨e, hr⟩ | ⟨f, -, hf, hr⟩ <;> rw [hr] at he ⊢
  · exact h
  · exact h
  rw [stateOf_ok] at he ⊢
  set b := p.buildEntry def_.name f.ty { itype := f.itype, boundsInterop := f.boundsInterop }
  -- building and forcing leave the functions alone
  have hF : (forceWildOpt f.forcedWild b.1 (some def_.loc) b.2).functions = p.functions := by
    cases f.forcedWild <;> rfl
  intro u id hid hfun
  by_cases hu : u = def_.uniqueKey
  · -- the declaration just made, forced as its function is
    subst hu
    rw [SortedMap.find?_insert_self, Option.some.injEq] at hid
    subst hid
    obtain ⟨r, hr⟩ := Option.isSome_iff_exists.1 (hfun def_ f (hF ▸ hf) rfl)
    show (forceWildOpt f.forcedWild b.1 (some def_.loc) b.2).arena.WildForced
      (forceWildOpt f.forcedWild b.1 (some def_.loc) b.2).store b.1
    rw [hr]
    exact Arena.wildForced_constrainToWild _ _ _ _ _
  · -- one made before, under another unique key
    have hid' : p.synthesized.find? u = some id := (SortedMap.find?_alter_of_ne hu _).symm.trans hid
    have hlt : id < p.arena.size := by
      obtain ⟨u', hu', -⟩ := SortedMap.mem_of_find? hid'
      exact (hw.synthesized _ hu').lt_size
    refine ((h u id hid' fun k f' hf' => hfun k f' ?_).mono he.store.extends.entries).extend he.arena hlt
    show (forceWildOpt f.forcedWild b.1 (some def_.loc) b.2).functions.find? k = some f'
    rw [hF]
    exact hf'

theorem keepsCache_outOfContextFunction (key : DeclKey) : KeepsCache (outOfContextFunction key) := by
  unfold outOfContextFunction
  refine keepsCache_get_bind fun p hw h => ?_
  split
  · exact keepsCache_throw _ p hw h
  · split
    · exact keepsCache_pure _ p hw h
    · split
      · exact keepsCache_pure _ p hw h
      · exact keepsCache_synthesize key p hw h

theorem keepsCache_paramOf (function : DeclKey) (index : Nat) (inContext : Bool) :
    KeepsCache (paramOf function index inContext) := by
  unfold paramOf
  extract_lets -underBinder jp
  -- after the function entry is found, only reads follow
  have hjp : ∀ fv, KeepsCache (jp fv) := by
    intro fv
    unfold jp
    refine keepsCache_get_bind fun p hw h => ?_
    split
    · exact keepsCache_throw _ p hw h
    · split
      · exact keepsCache_pure _ p hw h
      · exact keepsCache_throw _ p hw h
  clear_value jp
  split
  · refine keepsCache_get_bind fun p hw h => ?_
    split
    · exact ((keepsCache_pure _).bind hjp) p hw h
    · exact ((keepsCache_throw _).bind hjp) p hw h
  · exact (keepsCache_outOfContextFunction function).bind hjp

theorem keepsCache_getVariable (key : DeclKey) (inContext : Bool) :
    KeepsCache (getVariable key inContext) := by
  unfold getVariable
  refine keepsCache_get_bind fun p hw h => ?_
  dsimp only
  split
  · exact keepsCache_pure _ p hw h
  · split
    · exact ((keepsCache_outOfContextFunction key).bind fun _ => keepsCache_pure _) p hw h
    · split
      · exact keepsCache_paramOf _ _ _ p hw h
      · exact keepsCache_pure _ p hw h

/-! ## Resolving expressions -/

theorem keepsCache_dereferenceM (c : Nat) : KeepsCache (dereferenceM c) := by
  refine keepsCache_of (keeps_dereferenceM c) (keepsTables_dereferenceM c) fun p => ?_
  unfold dereferenceM
  rw [run_bind, run_get]
  dsimp only
  split
  · rfl
  · rfl

theorem keepsCache_addressOfM (c : Nat) : KeepsCache (addressOfM c) :=
  keepsCache_of (keeps_addressOfM c) (keepsTables_addressOfM c) fun _ => rfl

theorem keepsCache_stringLiteral : KeepsCache stringLiteral :=
  keepsCache_of keeps_stringLiteral keepsTables_stringLiteral fun _ => rfl

theorem keepsCache_derefAll (cs : SortedSet Nat) : KeepsCache (derefAll cs) := by
  unfold derefAll
  refine keepsCache_foldlM fun out c => (keepsCache_dereferenceM c).bind fun r => ?_
  cases r with
  | some d => exact keepsCache_pure _
  | none => exact keepsCache_pure _

mutual

theorem keepsCache_exprEntries : ∀ e : Expr, KeepsCache (exprEntries e)
  | .decl key inContext => by
    rw [exprEntries]
    exact keepsCache_getVariable key inContext
  | .deref e => by
    rw [exprEntries]
    exact (keepsCache_exprEntries e).bind keepsCache_derefAll
  | .index e => by
    rw [exprEntries]
    exact (keepsCache_exprEntries e).bind keepsCache_derefAll
  | .addrOf e => by
    rw [exprEntries]
    exact (keepsCache_exprEntries e).bind fun _ =>
      keepsCache_foldlM fun _ c => (keepsCache_addressOfM c).bind fun _ => keepsCache_pure _
  | .call callee => by
    rw [exprEntries]
    exact (keepsCache_exprEntries callee).bind fun _ => keepsCache_get.bind fun _ =>
      keepsCache_get.bind fun _ => keepsCache_pure _
  | .stringLiteral => by
    rw [exprEntries]
    exact keepsCache_stringLiteral.bind fun _ => keepsCache_pure _
  | .conditional bs => by
    rw [exprEntries]
    exact keepsCache_branchEntries bs
  | .null => by
    rw [exprEntries]
    exact keepsCache_pure _
  | .other => by
    rw [exprEntries]
    exact keepsCache_pure _

theorem keepsCache_branchEntries : ∀ bs : List Expr, KeepsCache (branchEntries bs)
  | [] => by
    rw [branchEntries]
    exact keepsCache_pure _
  | b :: bs => by
    rw [branchEntries]
    exact (keepsCache_exprEntries b).bind fun _ =>
      (keepsCache_branchEntries bs).bind fun _ => keepsCache_pure _

end

/-! ## Relating entries -/

section Relating

variable {reason : String} {loc : Option SourceLoc}

theorem keepsCache_updateStore {f : Arena → ConstraintStore → ConstraintStore}
    (hf : ∀ p : Program, p.Wf → p.store.Grows (f p.arena p.store)) : KeepsCache (updateStore f) :=
  keepsCache_of (keeps_updateStore hf) (keepsTables_updateStore f) fun _ => rfl

theorem keepsCache_forceSetWild (s : SortedSet Nat) (hr : reason ≠ Reason.arrayDecl) :
    KeepsCache (forceSetWild s reason loc) :=
  keepsCache_updateStore fun _ hw => Arena.growsFrom_constrainSetToWild hw.slots hr s _ (Nat.le_refl _)

theorem keepsCache_bind (formal actual : SortedSet Nat) (hr : reason ≠ Reason.arrayDecl) :
    KeepsCache (bind formal actual reason loc) :=
  keepsCache_of (keeps_bind formal actual hr) (keepsTables_bind formal actual) fun p => by
    unfold Program.bind
    rw [run_modify, stateOf_ok]
    refine synthesized_foldl (fun _ q => ?_) p
    refine synthesized_foldl (fun _ _ => ?_) q
    rfl

theorem keepsCache_addCall (callee : Expr) (args : List Expr) (result : Option Expr) :
    KeepsCache (addCall callee args result loc) := by
  unfold addCall
  refine (keepsCache_exprEntries callee).bind fun _ => keepsCache_get.bind fun _ => ?_
  refine (keepsCache_mapM keepsCache_exprEntries).bind fun argSets => ?_
  dsimp only
  split <;> [refine (keepsCache_exprEntries _).bind fun resultSet => ?_;
    refine (keepsCache_pure _).bind fun resultSet => ?_]
  -- what follows is the same whether or not the call's value is stored
  all_goals
    split
    · exact (keepsCache_forIn fun s _ => (keepsCache_forceSetWild s (by decide)).bind fun _ =>
        keepsCache_pure _).bind fun _ => keepsCache_pure _
    · refine (keepsCache_forIn fun f _ => keepsCache_get.bind fun q => ?_).bind fun _ =>
        keepsCache_pure _
      split
      · exact keepsCache_pure _
      · refine (keepsCache_forIn fun x _ => ?_).bind fun _ =>
          (keepsCache_bind _ _ (by decide)).bind fun _ => keepsCache_pure _
        obtain ⟨a, i⟩ := x
        dsimp only
        split
        · exact (keepsCache_bind _ _ (by decide)).bind fun _ => keepsCache_pure _
        · refine keepsCache_get.bind fun _ => ?_
          split
          · exact (keepsCache_forceSetWild _ (by decide)).bind fun _ => keepsCache_pure _
          · exact keepsCache_pure _

theorem keepsCache_addFact (fact : Fact) : KeepsCache (addFact fact) := by
  cases fact with
  | declare d => exact keepsCache_pure _
  | assign lhs rhs loc =>
    exact (keepsCache_exprEntries lhs).bind fun l => (keepsCache_exprEntries rhs).bind fun r =>
      keepsCache_updateStore fun _ hw =>
        Arena.growsFrom_constrainEqSets hw.slots (by decide) l r _ (Nat.le_refl _)
  | call callee args result loc => exact keepsCache_addCall callee args result
  | ret function e loc =>
    refine (keepsCache_getVariable function true).bind fun _ => (keepsCache_exprEntries e).bind
      fun _ => (keepsCache_forIn fun f _ => keepsCache_get.bind fun _ => ?_).bind fun _ =>
        keepsCache_pure _
    split
    · exact (keepsCache_updateStore fun _ hw =>
        Arena.growsFrom_constrainEqSets hw.slots (by decide) _ _ _ (Nat.le_refl _)).bind
          fun _ => keepsCache_pure _
    · exact keepsCache_pure _
  | cast e src dst loc =>
    refine keepsCache_ite ?_ (keepsCache_pure _)
    exact (keepsCache_exprEntries e).bind fun s => keepsCache_forceSetWild s (by decide)
  | arithmetic e loc =>
    refine (keepsCache_exprEntries e).bind fun _ =>
      (keepsCache_forIn fun c _ => keepsCache_get_bind fun q hw h => ?_).bind fun _ => keepsCache_pure _
    split
    · next v hv =>
      -- the bounded slot is the outermost slot of an entry, so it is registered
      obtain ⟨pe, hpe, hhead⟩ := Option.bind_eq_some_iff.1 hv
      have hreg : v < q.store.numVars := hw.slots c pe hpe v (List.mem_of_mem_head? hhead)
      have hq : KeepsAt q (updateStore fun _ cs => (cs.addGeq v .arr Reason.pointerArith loc).2) :=
        hw.withStore (StoreStep.addGeq hreg fun h => absurd h (by decide)).grows
      exact ⟨KeepsAt.bind hq fun _ => keeps_pure _, h.growsOnly hw (hq.2.growsOnly (sameTables_work q _ _ _)) rfl⟩
    · exact keepsCache_pure _ q hw h

end Relating

/-! ## Linking and reconciling -/

theorem synthesized_equateInSequence (q : Program) (ids : List Nat) (loc : Option SourceLoc) :
    (q.equateInSequence ids loc).synthesized = q.synthesized := by
  rw [equateInSequence, synthesized_foldl]
  rintro ⟨a, b⟩ q
  rfl

theorem keepsCache_equateInSequence (ids : List Nat) (loc : Option SourceLoc) :
    KeepsCache (modify fun q : Program => q.equateInSequence ids loc) :=
  keepsCache_modify (preserves_equateInSequence ids loc) (sameTables_equateInSequence ids loc)
    fun q => synthesized_equateInSequence q ids loc

theorem keepsCache_linkGroups : KeepsCache linkGroups := by
  unfold linkGroups
  refine keepsCache_get.bind fun _ => (keepsCache_modify (Preserves.foldl fun x _ =>
    preserves_equateInSequence x.2.toList (some x.1.loc))
      (sameTables_foldl fun x _ q => sameTables_equateInSequence _ _ q)
      (synthesized_foldl fun x q => synthesized_equateInSequence q _ _)).bind fun _ =>
    keepsCache_get.bind fun _ => (keepsCache_modify (Preserves.foldl fun s _ =>
      preserves_equateInSequence s.toList none)
        (sameTables_foldl fun s _ q => sameTables_equateInSequence _ _ q)
        (synthesized_foldl fun s q => synthesized_equateInSequence q _ _)).bind fun _ =>
      keepsCache_pure _

theorem keepsCache_linkFunctions : KeepsCache linkFunctions := by
  unfold linkFunctions
  refine keepsCache_get.bind fun _ => ?_
  dsimp only
  split <;> [refine keepsCache_get.bind fun _ => (keepsCache_forIn fun def_ byName => ?_).bind
      fun byName => (keepsCache_forIn fun decls pairs => ?_).bind fun pairs => ?_; skip]
  · refine keepsCache_get.bind fun _ => keepsCache_ite ?_ (keepsCache_pure _)
    exact (keepsCache_outOfContextFunction def_).bind fun _ => keepsCache_pure _
  · exact (keepsCache_equateInSequence decls none).bind fun _ => keepsCache_pure _
  -- the extern policy, whichever way the declarations were equated
  all_goals
    refine keepsCache_get.bind fun _ => (keepsCache_forIn fun name _ => ?_).bind fun _ =>
      keepsCache_pure _
    exact keepsCache_get.bind fun _ => (keepsCache_modify
      (Preserves.foldl fun id _ => preserves_applyExternPolicy id)
      (sameTables_foldl fun id _ q => sameTables_applyExternPolicy q id)
      (synthesized_foldl fun id q => synthesized_applyExternPolicy q id)).bind fun _ => keepsCache_pure _

theorem keepsCache_link : KeepsCache link :=
  keepsCache_linkGroups.bind fun _ => keepsCache_linkFunctions.bind fun _ => keepsCache_pure _

theorem keepsCache_reconcile : KeepsCache reconcile := by
  unfold reconcile
  refine keepsCache_get.bind fun _ => keepsCache_get.bind fun _ =>
    (keepsCache_forIn fun f _ => ?_).bind fun _ => keepsCache_get.bind fun _ => keepsCache_pure _
  refine (keepsCache_outOfContextFunction f.key).bind fun _ => keepsCache_ite ?_ (keepsCache_pure _)
  exact (keepsCache_modify (preserves_store fun q hq => growsFrom_reconcilePair hq.slots _ _ _ (Nat.le_refl _))
    (fun q => sameTables_work q _ _ _) fun _ => rfl).bind fun _ => keepsCache_pure _

/-! ## Recording facts -/

theorem synthesized_addDeclaration (p : Program) (d : DeclFact) :
    (p.addDeclaration d).synthesized = p.synthesized := by
  have hopt : ∀ (o : Option String) (id : Nat) (loc : Option SourceLoc) (q : Program),
      (forceWildOpt o id loc q).synthesized = q.synthesized := fun o _ _ _ => by cases o <;> rfl
  unfold Program.addDeclaration
  dsimp only
  split
  · -- a function records its parameters, which makes nothing up
    rw [addFunction_eq]
    show (recordParams d _ _).synthesized = _
    unfold Program.recordParams
    split
    · rw [synthesized_foldl fun x q => by unfold recordParam; split <;> rfl]
      exact hopt _ _ _ _
    · exact hopt _ _ _ _
  split
  · split <;> rfl
  split
  · rfl
  · split
    · exact hopt _ _ _ _
    · exact hopt _ _ _ _

theorem cacheForced_addFacts (hw : p.Wf) (hs : ∀ u, p.synthesized.find? u = none) (facts : List Fact) :
    (stateOf ((addFacts facts).run p)).CacheForced := by
  -- the declarations make nothing up
  have hsyn : (facts.foldl declareOnly p).synthesized = p.synthesized := by
    refine synthesized_foldl (fun f q => ?_) p
    cases f with
    | declare d => exact synthesized_addDeclaration q d
    | _ => rfl
  have hc : (facts.foldl declareOnly p).CacheForced := fun u id hid => by
    rw [hsyn, hs u] at hid
    cases hid
  have hw' := (Preserves.foldl (l := facts) (f := declareOnly) (fun f _ => by
    cases f with
    | declare d => exact preserves_addDeclaration d
    | _ => exact Preserves.id) p hw).1
  unfold Program.addFacts
  rw [run_bind, run_modify]
  exact (((keepsCache_forIn fun f _ => (keepsCache_addFact f).bind fun _ => keepsCache_pure _).bind
    fun _ => keepsCache_pure _) _ hw' hc).2

end Program

namespace Session

open Program

variable {s s' : Session}

theorem solveStore_cacheForced (hw : s.program.Wf) (h : s.program.CacheForced) {n : Nat}
    (hr : solveStore.run s = .ok n s') : s'.program.CacheForced := by
  have hg := solveStore_growsOnly hw hr
  -- solving installs another store, and nothing else
  have hs : s'.program.synthesized = s.program.synthesized := by
    unfold solveStore at hr
    rw [run_bind, run_get] at hr
    dsimp only at hr
    split at hr
    · cases hr
      rfl
    · cases hr
  exact h.growsOnly hw hg hs

theorem reconcileRounds_cacheForced (n : Nat) :
    ∀ (d ps : Nat) (s s' : Session) (r : Nat × Nat), s.program.Wf → s.program.CacheForced →
      (reconcileRounds n d ps).run s = .ok r s' → s'.program.CacheForced := by
  induction n with
  | zero =>
    intro d ps s s' r _ h hr
    cases hr
    exact h
  | succ n ih =>
    intro d ps s s' r hw h hr
    unfold reconcileRounds at hr
    rw [run_bind, run_onProgram] at hr
    obtain ⟨b, p₁, hr₁, hw₁, -, -⟩ := reconcile_run hw
    have h₁ := (keepsCache_reconcile s.program hw h).2
    rw [hr₁, stateOf_ok] at h₁
    rw [hr₁] at hr
    dsimp only at hr
    cases b with
    | false =>
      cases hr
      exact h₁
    | true =>
      rw [if_neg (by decide), run_bind] at hr
      obtain ⟨more, p₂, hr₂, hw₂, -, -⟩ := solveStore_run (s := { s with program := p₁ }) hw₁
      rw [hr₂] at hr
      exact ih _ _ _ _ _ hw₂ (solveStore_cacheForced (s := { s with program := p₁ }) hw₁ h₁ hr₂) hr

section Table

variable [UnifyTable]

theorem solve_cacheForced (hw : s.program.Wf) (h : s.program.CacheForced) {r : SolveSummary}
    (hr : solve.run s = .ok r s') : s'.program.CacheForced := by
  obtain ⟨prog, built, groups⟩ := s
  unfold solve at hr
  rw [run_bind, run_get] at hr
  dsimp only at hr
  split at hr
  · cases hr
  rw [run_bind] at hr
  obtain ⟨n, p₁, hr₁, hw₁, -, -⟩ := solveStore_run (s := ⟨prog, built, groups⟩) hw
  have h₁ := solveStore_cacheForced hw h hr₁
  rw [hr₁] at hr
  dsimp only at hr
  rw [run_bind, run_get] at hr
  dsimp only at hr
  rw [run_bind] at hr
  cases hr₂ : (reconcileRounds p₁.options.maxReconcileRounds 0 n).run ⟨p₁, built, groups⟩ with
  | error e s₂ => rw [hr₂] at hr; cases hr
  | ok r₂ s₂ =>
    rw [hr₂] at hr
    cases hr
    exact reconcileRounds_cacheForced _ _ _ _ s₂ _ hw₁ h₁ hr₂

end Table

end Session

end CheckedPointers
