import CheckedPointers.Proofs.SessionSteps

/-!
# Tables the analysis leaves alone

Recording declarations fills the program's tables: the entries recorded at each key, the global
variables by name, the functions, the names seen with a body, the owners of parameter keys and the
rewritable files. Every other operation, resolving expressions, relating entries, linking and
reconciling, works on the arena, the store and the declarations made up for definitions only
(`Program.SameTables`), and it does so whatever its outcome (`Program.KeepsTables`). With the
invariants kept as well, such an operation only grows the program (`Program.GrowsOnly`): so does a
whole solve, made of solving and reconciling (`Session.solve_growsOnly`).
-/

namespace CheckedPointers

open ConstraintStore

namespace Program

variable {p p' p'' : Program}

/-- `p'` has the tables of `p`: the two differ at most in arena, store and made-up declarations. -/
structure SameTables (p p' : Program) : Prop where
  options : p'.options = p.options
  entriesAt : p'.entriesAt = p.entriesAt
  globals : p'.globals = p.globals
  functions : p'.functions = p.functions
  bodies : p'.bodies = p.bodies
  paramOwners : p'.paramOwners = p.paramOwners
  files : p'.files = p.files

theorem SameTables.refl (p : Program) : SameTables p p := ⟨rfl, rfl, rfl, rfl, rfl, rfl, rfl⟩

theorem SameTables.trans (h : SameTables p p') (h' : SameTables p' p'') : SameTables p p'' :=
  ⟨h'.1.trans h.1, h'.2.trans h.2, h'.3.trans h.3, h'.4.trans h.4, h'.5.trans h.5, h'.6.trans h.6,
    h'.7.trans h.7⟩

theorem sameTables_work (p : Program) (a : Arena) (cs : ConstraintStore) (syn : SortedMap String Nat) :
    SameTables p { p with arena := a, store := cs, synthesized := syn } :=
  ⟨rfl, rfl, rfl, rfl, rfl, rfl, rfl⟩

theorem sameTables_foldl {β : Type} {l : List β} {f : Program → β → Program}
    (hf : ∀ x ∈ l, ∀ p, SameTables p (f p x)) (p : Program) : SameTables p (l.foldl f p) := by
  induction l generalizing p with
  | nil => exact SameTables.refl p
  | cons x xs ih =>
    exact (hf x List.mem_cons_self p).trans (ih (fun y hy => hf y (List.mem_cons_of_mem x hy)) _)

/-- Run from any program, the operation leaves its tables as they were, whatever its outcome. -/
def KeepsTables {α : Type} (m : ProgramM α) : Prop := ∀ p, SameTables p (stateOf (m.run p))

section KeepsTables

variable {α β : Type}

theorem keepsTables_pure (a : α) : KeepsTables (pure a : ProgramM α) := SameTables.refl

theorem keepsTables_throw (e : Error) : KeepsTables (throw e : ProgramM α) := SameTables.refl

theorem keepsTables_get : KeepsTables (get : ProgramM Program) := SameTables.refl

theorem keepsTables_modify {f : Program → Program} (hf : ∀ p, SameTables p (f p)) :
    KeepsTables (modify f : ProgramM Unit) := hf

theorem KeepsTables.bind {x : ProgramM α} {f : α → ProgramM β} (hx : KeepsTables x)
    (hf : ∀ a, KeepsTables (f a)) : KeepsTables (x >>= f) := by
  intro p
  have h := hx p
  rw [run_bind]
  cases hr : x.run p with
  | ok a s =>
    rw [hr] at h
    exact h.trans (hf a s)
  | error e s =>
    rw [hr] at h
    exact h

theorem keepsTables_get_bind {f : Program → ProgramM β} (hf : ∀ p, SameTables p (stateOf ((f p).run p))) :
    KeepsTables (get >>= f) := by
  intro p
  rw [run_bind, run_get]
  exact hf p

theorem keepsTables_forIn {l : List α} {init : β} {f : α → β → ProgramM (ForInStep β)}
    (hf : ∀ a b, KeepsTables (f a b)) : KeepsTables (forIn l init f) := by
  induction l generalizing init with
  | nil => exact keepsTables_pure init
  | cons x xs ih =>
    rw [List.forIn_cons]
    refine (hf x init).bind fun r => ?_
    cases r with
    | done b => exact keepsTables_pure b
    | yield b => exact ih

theorem keepsTables_foldlM {l : List α} {init : β} {f : β → α → ProgramM β}
    (hf : ∀ b a, KeepsTables (f b a)) : KeepsTables (l.foldlM f init) := by
  induction l generalizing init with
  | nil => exact keepsTables_pure init
  | cons x xs ih =>
    rw [List.foldlM_cons]
    exact (hf init x).bind fun b => ih

theorem keepsTables_mapM {l : List α} {f : α → ProgramM β} (hf : ∀ a, KeepsTables (f a)) :
    KeepsTables (l.mapM f) := by
  rw [List.mapM_eq_reverse_foldlM_cons]
  exact (keepsTables_foldlM fun b a => (hf a).bind fun c => keepsTables_pure (c :: b)).bind
    fun l => keepsTables_pure _

theorem keepsTables_ite {c : Prop} [Decidable c] {x y : ProgramM α} (hx : KeepsTables x)
    (hy : KeepsTables y) : KeepsTables (if c then x else y) := by
  split
  · exact hx
  · exact hy

end KeepsTables

/-! ## Looking up declarations -/

theorem keepsTables_synthesize (def_ : DeclKey) : KeepsTables (synthesize def_) := by
  unfold synthesize
  refine keepsTables_get_bind fun p => ?_
  split
  · exact SameTables.refl p
  · split
    · exact SameTables.refl p
    · dsimp only
      split <;> exact sameTables_work p _ _ _

theorem keepsTables_declarationOf (key : DeclKey) : KeepsTables (declarationOf key) := by
  unfold declarationOf outOfContextFunction
  refine keepsTables_get_bind fun p => ?_
  split
  · exact SameTables.refl p
  · split
    · exact SameTables.refl p
    · split
      · exact SameTables.refl p
      · exact keepsTables_synthesize key p

theorem keepsTables_paramOf (function : DeclKey) (index : Nat) (inContext : Bool) :
    KeepsTables (paramOf function index inContext) := by
  unfold paramOf
  extract_lets -underBinder jp
  have hjp : ∀ fv, KeepsTables (jp fv) := by
    intro fv
    unfold jp
    refine keepsTables_get_bind fun p => ?_
    split
    · exact SameTables.refl p
    · split <;> exact SameTables.refl p
  clear_value jp
  split
  · refine keepsTables_get_bind fun p => ?_
    split
    · exact ((keepsTables_pure _).bind hjp) p
    · exact ((keepsTables_throw _).bind hjp) p
  · exact (keepsTables_declarationOf function).bind hjp

theorem keepsTables_getVariable (key : DeclKey) (inContext : Bool) :
    KeepsTables (getVariable key inContext) := by
  unfold getVariable
  refine keepsTables_get_bind fun p => ?_
  dsimp only
  split
  · exact SameTables.refl p
  · split
    · exact ((keepsTables_declarationOf key).bind fun _ => keepsTables_pure _) p
    · split
      · exact keepsTables_paramOf _ _ _ p
      · exact SameTables.refl p

/-! ## Resolving expressions -/

theorem keepsTables_dereferenceM (c : Nat) : KeepsTables (dereferenceM c) := by
  unfold dereferenceM
  refine keepsTables_get_bind fun p => ?_
  split
  · exact sameTables_work p _ _ _
  · exact SameTables.refl p

theorem keepsTables_addressOfM (c : Nat) : KeepsTables (addressOfM c) :=
  keepsTables_get_bind fun p => sameTables_work p _ _ _

theorem keepsTables_stringLiteral : KeepsTables stringLiteral :=
  keepsTables_get_bind fun p => sameTables_work p _ _ _

theorem keepsTables_derefAll (cs : SortedSet Nat) : KeepsTables (derefAll cs) := by
  unfold derefAll
  refine keepsTables_foldlM fun out c => (keepsTables_dereferenceM c).bind fun r => ?_
  cases r with
  | some d => exact keepsTables_pure _
  | none => exact keepsTables_pure _

mutual

theorem keepsTables_exprEntries : ∀ e : Expr, KeepsTables (exprEntries e)
  | .decl key inContext => by
    rw [exprEntries]
    exact keepsTables_getVariable key inContext
  | .deref e => by
    rw [exprEntries]
    exact (keepsTables_exprEntries e).bind keepsTables_derefAll
  | .index e => by
    rw [exprEntries]
    exact (keepsTables_exprEntries e).bind keepsTables_derefAll
  | .addrOf e => by
    rw [exprEntries]
    exact (keepsTables_exprEntries e).bind fun _ =>
      keepsTables_foldlM fun _ c => (keepsTables_addressOfM c).bind fun _ => keepsTables_pure _
  | .call callee => by
    rw [exprEntries]
    exact (keepsTables_exprEntries callee).bind fun _ => keepsTables_get.bind fun _ =>
      keepsTables_get.bind fun _ => keepsTables_pure _
  | .stringLiteral => by
    rw [exprEntries]
    exact keepsTables_stringLiteral.bind fun _ => keepsTables_pure _
  | .conditional bs => by
    rw [exprEntries]
    exact keepsTables_branchEntries bs
  | .null => by
    rw [exprEntries]
    exact keepsTables_pure _
  | .other => by
    rw [exprEntries]
    exact keepsTables_pure _

theorem keepsTables_branchEntries : ∀ bs : List Expr, KeepsTables (branchEntries bs)
  | [] => by
    rw [branchEntries]
    exact keepsTables_pure _
  | b :: bs => by
    rw [branchEntries]
    exact (keepsTables_exprEntries b).bind fun _ =>
      (keepsTables_branchEntries bs).bind fun _ => keepsTables_pure _

end

/-! ## Relating entries -/

variable {reason : String} {loc : Option SourceLoc}

theorem keepsTables_updateStore (f : Arena → ConstraintStore → ConstraintStore) :
    KeepsTables (updateStore f) :=
  keepsTables_modify fun p => sameTables_work p _ _ _

theorem keepsTables_bind (formal actual : SortedSet Nat) : KeepsTables (bind formal actual reason loc) :=
  keepsTables_modify <| sameTables_foldl fun _ _ =>
    sameTables_foldl fun _ _ p => sameTables_work p _ _ _

theorem keepsTables_addCall (callee : Expr) (args : List Expr) (result : Option Expr) :
    KeepsTables (addCall callee args result loc) := by
  unfold addCall
  refine (keepsTables_exprEntries callee).bind fun _ => keepsTables_get.bind fun _ => ?_
  refine (keepsTables_mapM keepsTables_exprEntries).bind fun argSets => ?_
  dsimp only
  split <;> [refine (keepsTables_exprEntries _).bind fun resultSet => ?_;
    refine (keepsTables_pure _).bind fun resultSet => ?_]
  all_goals
    split
    · exact (keepsTables_forIn fun s _ => (keepsTables_updateStore _).bind fun _ =>
        keepsTables_pure _).bind fun _ => keepsTables_pure _
    · refine (keepsTables_forIn fun f _ => keepsTables_get.bind fun q => ?_).bind fun _ =>
        keepsTables_pure _
      split
      · exact keepsTables_pure _
      · refine (keepsTables_forIn fun x _ => ?_).bind fun _ =>
          (keepsTables_bind _ _).bind fun _ => keepsTables_pure _
        obtain ⟨a, i⟩ := x
        dsimp only
        split
        · exact (keepsTables_bind _ _).bind fun _ => keepsTables_pure _
        · refine keepsTables_get.bind fun _ => ?_
          split
          · exact (keepsTables_updateStore _).bind fun _ => keepsTables_pure _
          · exact keepsTables_pure _

theorem keepsTables_addFact (fact : Fact) : KeepsTables (addFact fact) := by
  cases fact with
  | declare d => exact keepsTables_pure _
  | assign lhs rhs loc =>
    exact (keepsTables_exprEntries lhs).bind fun _ => (keepsTables_exprEntries rhs).bind fun _ =>
      keepsTables_updateStore _
  | call callee args result loc => exact keepsTables_addCall callee args result
  | ret function e loc =>
    refine (keepsTables_getVariable function true).bind fun _ => (keepsTables_exprEntries e).bind
      fun _ => (keepsTables_forIn fun f _ => keepsTables_get.bind fun _ => ?_).bind fun _ =>
        keepsTables_pure _
    split
    · exact (keepsTables_updateStore _).bind fun _ => keepsTables_pure _
    · exact keepsTables_pure _
  | cast e src dst loc =>
    exact keepsTables_ite ((keepsTables_exprEntries e).bind fun _ => keepsTables_updateStore _)
      (keepsTables_pure _)
  | arithmetic e loc =>
    refine (keepsTables_exprEntries e).bind fun _ =>
      (keepsTables_forIn fun c _ => keepsTables_get.bind fun _ => ?_).bind fun _ => keepsTables_pure _
    split
    · exact (keepsTables_updateStore _).bind fun _ => keepsTables_pure _
    · exact keepsTables_pure _

/-! ## Linking and reconciling -/

theorem sameTables_equateInSequence (ids : List Nat) (loc : Option SourceLoc) (p : Program) :
    SameTables p (p.equateInSequence ids loc) :=
  sameTables_foldl (fun _ _ p => sameTables_work p _ _ _) p

theorem sameTables_forceWild (p : Program) (id : Nat) : SameTables p (p.forceWild id reason loc) :=
  sameTables_work p _ _ _

theorem sameTables_applyExternPolicy (p : Program) (id : Nat) : SameTables p (p.applyExternPolicy id) := by
  have hpin : ∀ p q, SameTables p (p.pinItype q).2 := by
    intro p q
    unfold pinItype
    split
    · split
      · exact sameTables_work p _ _ _
      · exact SameTables.refl p
    · exact SameTables.refl p
  have hinner : ∀ p q why, SameTables p (p.forceInnerLevels q why) := by
    intro p q why
    unfold forceInnerLevels
    split
    · next ptr _ =>
      have h : SameTables p ((ptr.slots.drop 1).foldl
          (fun p v => { p with store := (p.store.addWild v why none).2 }) p) :=
        sameTables_foldl (fun _ _ p => sameTables_work p _ _ _) p
      dsimp only
      split
      · exact h.trans (sameTables_forceWild _ _)
      · exact h
    · exact sameTables_forceWild p _
    · exact SameTables.refl p
  unfold applyExternPolicy
  split
  · exact SameTables.refl p
  · dsimp only
    refine (sameTables_foldl (fun r _ p => ?_) p).trans
      (sameTables_foldl (fun q _ p => (hpin p q).trans (hinner _ q _)) _)
    split
    · exact (hpin p r).trans (hinner _ r _)
    · exact (hpin p r).trans (sameTables_forceWild _ _)

theorem keepsTables_linkGroups : KeepsTables linkGroups := by
  unfold linkGroups
  exact keepsTables_get.bind fun _ =>
    (keepsTables_modify (sameTables_foldl fun x _ p => sameTables_equateInSequence _ _ p)).bind
      fun _ => keepsTables_get.bind fun _ =>
        (keepsTables_modify (sameTables_foldl fun s _ p => sameTables_equateInSequence _ _ p)).bind
          fun _ => keepsTables_pure _

theorem keepsTables_linkFunctions : KeepsTables linkFunctions := by
  unfold linkFunctions
  refine keepsTables_get.bind fun _ => ?_
  dsimp only
  split <;> [refine keepsTables_get.bind fun _ => (keepsTables_forIn fun def_ byName => ?_).bind
      fun byName => (keepsTables_forIn fun decls pairs => ?_).bind fun pairs => ?_; skip]
  · refine keepsTables_get.bind fun _ => keepsTables_ite ?_ (keepsTables_pure _)
    exact (keepsTables_declarationOf def_).bind fun _ => keepsTables_pure _
  · exact (keepsTables_modify (sameTables_equateInSequence decls none)).bind fun _ => keepsTables_pure _
  all_goals
    refine keepsTables_get.bind fun _ => (keepsTables_forIn fun name _ => ?_).bind fun _ =>
      keepsTables_pure _
    exact keepsTables_get.bind fun _ => (keepsTables_modify
      (sameTables_foldl fun id _ p => sameTables_applyExternPolicy p id)).bind fun _ => keepsTables_pure _

theorem keepsTables_link : KeepsTables link :=
  keepsTables_linkGroups.bind fun _ => keepsTables_linkFunctions.bind fun _ => keepsTables_pure _

theorem keepsTables_reconcile : KeepsTables reconcile := by
  unfold reconcile
  refine keepsTables_get.bind fun _ => keepsTables_get.bind fun _ =>
    (keepsTables_forIn fun f _ => ?_).bind fun _ => keepsTables_get.bind fun _ => keepsTables_pure _
  refine (keepsTables_declarationOf f.key).bind fun _ => keepsTables_ite ?_ (keepsTables_pure _)
  exact (keepsTables_modify fun p => sameTables_work p _ _ _).bind fun _ => keepsTables_pure _

/-! ## Growing without recording -/

/-- `p'` grew from `p` without recording anything: the same tables, an extended arena, and the
constraints and chains of `p` kept in order, whatever became of the environment. -/
structure GrowsOnly (p p' : Program) : Prop where
  tables : SameTables p p'
  arena : p.arena.Extends p'.arena
  entries : p.store.entries <+: p'.store.entries
  chains : p.store.chains <+: p'.store.chains

theorem GrowsOnly.refl (p : Program) : GrowsOnly p p :=
  ⟨SameTables.refl p, Arena.Extends.refl _, List.prefix_refl _, List.prefix_refl _⟩

theorem GrowsOnly.trans (h : GrowsOnly p p') (h' : GrowsOnly p' p'') : GrowsOnly p p'' :=
  ⟨h.tables.trans h'.tables, h.arena.trans h'.arena, h.entries.trans h'.entries, h.chains.trans h'.chains⟩

theorem Evolves.growsOnly (he : p.Evolves p') (ht : SameTables p p') : GrowsOnly p p' :=
  ⟨ht, he.arena, he.store.extends.entries, he.store.extends.chains⟩

theorem growsOnly_of_keeps {α : Type} {m : ProgramM α} (hk : Keeps m) (ht : KeepsTables m) (hw : p.Wf) :
    GrowsOnly p (stateOf (m.run p)) :=
  (hk p hw).2.growsOnly (ht p)

/-! ## Recorded names stay chained -/

/-- Every entry recorded under a global variable's name, and every function's entry, is chained. -/
structure NamesChained (p : Program) : Prop where
  globals : ∀ e ∈ p.globals.toList, ∀ id ∈ e.2.toList, p.arena.Chained p.store.chains id
  functions : ∀ e ∈ p.functions.toList, p.arena.Chained p.store.chains e.2.entry

theorem NamesChained.mono (h : p.NamesChained) (ha : p.arena.Extends p'.arena)
    (hch : ∀ c ∈ p.store.chains, c ∈ p'.store.chains) (hg : p'.globals = p.globals)
    (hf : p'.functions = p.functions) : p'.NamesChained where
  globals e he id hid := (h.globals e (hg ▸ he) id hid).mono ha hch
  functions e he := (h.functions e (hf ▸ he)).mono ha hch

theorem NamesChained.growsOnly (h : p.NamesChained) (hg : GrowsOnly p p') : p'.NamesChained :=
  h.mono hg.arena (fun _ hc => hg.chains.subset hc) hg.tables.globals hg.tables.functions

theorem foldl_recordParam_names (d : DeclFact) :
    ∀ (l : List ((ParamShape × SortedSet Nat) × Nat)) (p : Program),
      (l.foldl (recordParam d) p).globals = p.globals ∧ (l.foldl (recordParam d) p).functions = p.functions
  | [], _ => ⟨rfl, rfl⟩
  | x :: xs, p => by
    have h : (recordParam d p x).globals = p.globals ∧ (recordParam d p x).functions = p.functions := by
      unfold recordParam
      split <;> exact ⟨rfl, rfl⟩
    obtain ⟨hg, hf⟩ := foldl_recordParam_names d xs (recordParam d p x)
    exact ⟨hg.trans h.1, hf.trans h.2⟩

theorem recordParams_names (d : DeclFact) (id : Nat) (p : Program) :
    (recordParams d id p).globals = p.globals ∧ (recordParams d id p).functions = p.functions := by
  unfold recordParams
  split
  · exact foldl_recordParam_names d _ p
  · exact ⟨rfl, rfl⟩

theorem forceWildOpt_names (o : Option String) (id : Nat) (loc : Option SourceLoc) (p : Program) :
    (forceWildOpt o id loc p).globals = p.globals ∧ (forceWildOpt o id loc p).functions = p.functions := by
  cases o <;> exact ⟨rfl, rfl⟩

theorem NamesChained.addFunction (h : p.NamesChained) (hw : p.Wf) (d : DeclFact) (ann : Annotations)
    {forced : Option String} (hforced : forced ≠ some Reason.arrayDecl) :
    (p.addFunction d ann forced).NamesChained := by
  rw [addFunction_eq]
  obtain ⟨hw1, he1, hc1⟩ := hw.buildEntry d.name d.ty ann
  set b := p.buildEntry d.name d.ty ann
  obtain ⟨hw2, he2⟩ := preserves_forceWildOpt hforced b.1 (some d.key.loc) b.2 hw1
  set p2 := forceWildOpt forced b.1 (some d.key.loc) b.2
  have hc2 := he2.chained hc1
  obtain ⟨-, ha4, hs4⟩ := ((hw2.recordAt d.key hc2).noteBody d).recordParams d hc2
  set q := recordParams d b.1 (noteBody d (p2.recordAt d.key b.1))
  have he : p.Evolves q := ⟨ha4 ▸ (he1.trans he2).arena, hs4 ▸ (he1.trans he2).store⟩
  obtain ⟨hg4, hf4⟩ := recordParams_names d b.1 (noteBody d (p2.recordAt d.key b.1))
  obtain ⟨hg2, hf2⟩ := forceWildOpt_names forced b.1 (some d.key.loc) b.2
  have hq : q.NamesChained := h.mono he.arena (fun _ hc => he.store.extends.chains.subset hc)
    (hg4.trans hg2) (hf4.trans hf2)
  refine ⟨hq.globals, fun e he' => ?_⟩
  rcases SortedMap.mem_insertIfAbsent he' with he' | rfl
  · exact hq.functions e he'
  · show q.arena.Chained q.store.chains b.1
    rw [ha4, hs4]
    exact hc2

theorem NamesChained.addDeclaration (h : p.NamesChained) (hw : p.Wf) (d : DeclFact) :
    (p.addDeclaration d).NamesChained := by
  unfold Program.addDeclaration
  generalize hp0 : ({ p with files := p.files.alter d.key.file fun r => r.getD true && d.rewritable } :
    Program) = p0
  dsimp only
  have hw0 : p0.Wf := hp0 ▸ ⟨hw.store, hw.slots, hw.recorded, hw.synthesized, hw.functions⟩
  have h0 : p0.NamesChained := hp0 ▸ ⟨h.globals, h.functions⟩
  have hforced := forcedReason_ne d
  split
  · exact h0.addFunction hw0 d _ hforced
  split
  · -- a parameter of a recorded function: only constraints are added
    split
    · next r hr =>
      have hr' : r ≠ Reason.arrayDecl := fun h => hforced (by rw [hr, h])
      have hg : p0.store.Grows (p0.arena.constrainSetToWild p0.store
          ((p0.entriesAt.find? d.key).getD SortedSet.empty) r (some d.key.loc)) :=
        Arena.growsFrom_constrainSetToWild hw0.slots hr' _ _ (Nat.le_refl _)
      exact h0.mono (Arena.Extends.refl _) (fun _ hc => hg.extends.chains.subset hc) rfl rfl
    · exact h0
  split
  · exact h0
  -- any other declaration with a level builds one chained pointer entry
  obtain ⟨hw1, he1, hc1⟩ := hw0.buildEntry d.name d.ty
    { itype := d.itype, boundsInterop := d.boundsInterop, hasBody := d.isDefinition }
  set b := p0.buildEntry d.name d.ty
    { itype := d.itype, boundsInterop := d.boundsInterop, hasBody := d.isDefinition }
  obtain ⟨-, he2⟩ := preserves_forceWildOpt hforced b.1 (some d.key.loc) b.2 hw1
  obtain ⟨hg2, hf2⟩ := forceWildOpt_names (DeclFact.forcedReason d) b.1 (some d.key.loc) b.2
  set p2 := forceWildOpt (DeclFact.forcedReason d) b.1 (some d.key.loc) b.2
  have he := he1.trans he2
  have h2 : p2.NamesChained :=
    h0.mono he.arena (fun _ hc => he.store.extends.chains.subset hc) hg2 hf2
  have hc2 : p2.arena.Chained p2.store.chains b.1 := he2.chained hc1
  have h3 : (p2.recordAt d.key b.1).NamesChained := ⟨h2.globals, h2.functions⟩
  show (if d.isGlobal && d.kind == .variable then
      { p2.recordAt d.key b.1 with globals := p2.globals.alter d.name fun s =>
          (s.getD SortedSet.empty).insert b.1 }
    else p2.recordAt d.key b.1).NamesChained
  split
  · refine ⟨fun e he' id hid => ?_, h3.functions⟩
    -- a global variable: its new entry joins those already under its name
    rcases SortedMap.mem_alter_snd he' with he' | he' | ⟨k, w, hw', he'⟩
    · exact h2.globals e he' id hid
    · rw [he'] at hid
      rcases SortedSet.mem_insert hid with rfl | hid
      · exact hc2
      · cases hid
    · rw [he'] at hid
      rcases SortedSet.mem_insert hid with rfl | hid
      · exact hc2
      · exact h2.globals _ hw' id hid
  · exact h3

theorem NamesChained.foldl {β : Type} {l : List β} {g : Program → β → Program}
    (hg : ∀ x ∈ l, ∀ q : Program, q.Wf → q.NamesChained → (g q x).Wf ∧ (g q x).NamesChained) :
    ∀ q : Program, q.Wf → q.NamesChained → (l.foldl g q).NamesChained := by
  induction l with
  | nil => exact fun _ _ hq => hq
  | cons x xs ih =>
    intro q hwq hq
    obtain ⟨hw', hn'⟩ := hg x List.mem_cons_self q hwq hq
    exact ih (fun y hy => hg y (List.mem_cons_of_mem x hy)) _ hw' hn'

theorem NamesChained.addFacts (h : p.NamesChained) (hw : p.Wf) (facts : List Fact) :
    (stateOf ((addFacts facts).run p)).NamesChained := by
  unfold Program.addFacts
  rw [run_bind, run_modify]
  -- the declarations first, then the other facts, which record nothing
  refine NamesChained.growsOnly ?_ (growsOnly_of_keeps
    ((keeps_forIn fun f _ => (keeps_addFact f).bind fun _ => keeps_pure _).bind fun _ => keeps_pure _)
    ((keepsTables_forIn fun f _ => (keepsTables_addFact f).bind fun _ => keepsTables_pure _).bind
      fun _ => keepsTables_pure _) ((Preserves.foldl fun f _ => ?_) p hw).1)
  · refine NamesChained.foldl (fun f _ q hwq hq => ?_) p hw h
    cases f with
    | declare d => exact ⟨(preserves_addDeclaration d q hwq).1, hq.addDeclaration hwq d⟩
    | _ => exact ⟨hwq, hq⟩
  · cases f with
    | declare d => exact preserves_addDeclaration d
    | _ => exact Preserves.id

end Program

namespace Session

open Program

variable {s s' : Session}

theorem solveStore_growsOnly (hw : s.program.Wf) {n : Nat} (h : solveStore.run s = .ok n s') :
    GrowsOnly s.program s'.program := by
  unfold solveStore at h
  rw [run_bind, run_get] at h
  dsimp only at h
  split at h
  · next st cs hr =>
    cases h
    -- the solved store is the store with another environment
    obtain ⟨heq, -, -, -⟩ := hw.store.solve hr
    have hcs : cs = { s.program.store with env := cs.env } := heq
    have hent : cs.entries = s.program.store.entries := by rw [hcs]
    have hch : cs.chains = s.program.store.chains := by rw [hcs]
    exact ⟨sameTables_work _ _ _ _, Arena.Extends.refl _, hent ▸ List.prefix_refl _,
      hch ▸ List.prefix_refl _⟩
  · cases h

theorem reconcileRounds_growsOnly (n : Nat) :
    ∀ (d ps : Nat) (s s' : Session) (r : Nat × Nat), s.program.Wf →
      (reconcileRounds n d ps).run s = .ok r s' → GrowsOnly s.program s'.program := by
  induction n with
  | zero =>
    intro d ps s s' r _ h
    cases h
    exact GrowsOnly.refl _
  | succ n ih =>
    intro d ps s s' r hw h
    unfold reconcileRounds at h
    rw [run_bind, run_onProgram] at h
    obtain ⟨b, p1, hr, hw1, -, -⟩ := Program.reconcile_run hw
    have h1 := growsOnly_of_keeps keeps_reconcile keepsTables_reconcile hw
    rw [hr, stateOf_ok] at h1
    rw [hr] at h
    dsimp only at h
    cases b with
    | false =>
      cases h
      exact h1
    | true =>
      rw [if_neg (by decide), run_bind] at h
      obtain ⟨more, p2, hr2, hw2, -, -⟩ := solveStore_run (s := { s with program := p1 }) hw1
      rw [hr2] at h
      exact h1.trans ((solveStore_growsOnly hw1 hr2).trans (ih _ _ _ _ _ hw2 h))

section Table

variable [UnifyTable]

/-- A solve only grows the program. -/
theorem solve_growsOnly (hw : s.program.Wf) {r : SolveSummary} (h : solve.run s = .ok r s') :
    GrowsOnly s.program s'.program := by
  obtain ⟨prog, built, groups⟩ := s
  unfold solve at h
  rw [run_bind, run_get] at h
  dsimp only at h
  split at h
  · cases h
  rw [run_bind] at h
  obtain ⟨n, p1, hr1, hw1, -, -⟩ := solveStore_run (s := ⟨prog, built, groups⟩) hw
  rw [hr1] at h
  dsimp only at h
  rw [run_bind, run_get] at h
  dsimp only at h
  rw [run_bind] at h
  have h1 := solveStore_growsOnly hw hr1
  cases hr2 : (reconcileRounds p1.options.maxReconcileRounds 0 n).run ⟨p1, built, groups⟩ with
  | error e s2 => rw [hr2] at h; cases h
  | ok r2 s2 =>
    rw [hr2] at h
    cases h
    have h2 := reconcileRounds_growsOnly _ _ _ _ _ _ hw1 hr2
    exact h1.trans h2

variable {mayFail : Session → Prop} {o : Options}

theorem Step.namesChained (h : Step mayFail s s') (hw : s.program.Wf) (hn : s.program.NamesChained) :
    s'.program.NamesChained := by
  cases h with
  | build facts _ =>
    unfold Session.build
    rw [run_bind, run_onProgram]
    have h1 := hn.addFacts hw facts
    have hw1 := (keeps_addFacts facts s.program hw).1
    cases hr1 : (addFacts facts).run s.program with
    | error e p1 =>
      rw [hr1] at h1
      exact h1
    | ok u p1 =>
      rw [hr1, stateOf_ok] at h1 hw1
      dsimp only
      rw [run_bind, run_onProgram]
      have h2 := h1.growsOnly (growsOnly_of_keeps keeps_link keepsTables_link hw1)
      cases hr2 : link.run p1 with
      | error e p2 =>
        rw [hr2] at h2
        exact h2
      | ok st p2 =>
        rw [hr2] at h2
        exact h2
  | solve =>
    rcases solve_run hw with ⟨-, hr⟩ | ⟨-, r, p, hr, -⟩
    · rw [hr]
      exact hn
    · rw [hr, stateOf_ok]
      exact hn.growsOnly (solve_growsOnly hw hr)
  | commit v scope sp hsp =>
    -- a commit installs a store over the same chains, in the same arena
    obtain ⟨-, -, -, hch, -⟩ := speculate_ok hw.store hsp
    exact hn.mono (Arena.Extends.refl _) (fun c hc => by rw [Session.commit]; exact hch ▸ hc) rfl rfl

theorem Reachable.namesChained (h : Reachable mayFail o s) : s.program.NamesChained := by
  induction h with
  | refl => exact ⟨(fun _ h => nomatch h), fun _ h => nomatch h⟩
  | tail hr step ih => exact step.namesChained (Reachable.wf hr) ih

end Table

end Session

end CheckedPointers
