import CheckedPointers.Program.Facts
import CheckedPointers.Program.Link
import CheckedPointers.Program.Reconcile
import CheckedPointers.Proofs.ArenaSteps

/-!
# What the program operations keep

Every operation on a program, recording facts, linking or reconciling, whether it succeeds or
fails part way, leaves a program whose arena and store only grew (`Program.Evolves`) and which
keeps its invariants (`Program.Wf`): the store's, every slot of every entry registered, every entry
recorded at a key or made up for a definition chained, and every function recorded under its own
key with no array reason forcing it.

An operation of the program monad keeps them when it does so from every program that has them,
for the state it leaves on success and on failure alike (`Program.Keeps`); binding, looping and
folding keep them when their parts do. A change that is a plain function of the program keeps
them in the same sense (`Program.Preserves`).
-/

namespace CheckedPointers

open ConstraintStore

theorem DeclKey.compare_self (k : DeclKey) : compare k k = .eq := by
  cases k
  simp [compare, instOrdDeclKey.ord, String.compare, compareOfLessAndEq]

/-! ## Running state operations -/

/-- The state an operation leaves, whether it succeeded or failed. -/
def stateOf {ε σ α : Type} : EStateM.Result ε σ α → σ
  | .ok _ s => s
  | .error _ s => s

section Run

variable {σ α β : Type}

@[simp] theorem run_get (s : σ) : (get : EStateM Error σ σ).run s = .ok s s := rfl
@[simp] theorem run_set (s s' : σ) : (set s' : EStateM Error σ Unit).run s = .ok () s' := rfl
@[simp] theorem run_pure (a : α) (s : σ) : (pure a : EStateM Error σ α).run s = .ok a s := rfl
@[simp] theorem run_throw (e : Error) (s : σ) : (throw e : EStateM Error σ α).run s = .error e s := rfl
@[simp] theorem run_modify (f : σ → σ) (s : σ) :
    (modify f : EStateM Error σ Unit).run s = .ok () (f s) := rfl
@[simp] theorem stateOf_ok (a : α) (s : σ) : stateOf (.ok a s : EStateM.Result Error σ α) = s := rfl
@[simp] theorem stateOf_error (e : Error) (s : σ) :
    stateOf (.error e s : EStateM.Result Error σ α) = s := rfl

/-- The error an operation stopped with, if it failed. -/
def errorOf {ε : Type} : EStateM.Result ε σ α → Option ε
  | .ok _ _ => none
  | .error e _ => some e

theorem eq_error_of_errorOf {r : EStateM.Result Error σ α} {e : Error} (h : errorOf r = some e) :
    r = .error e (stateOf r) := by
  cases r with
  | ok a s => cases h
  | error e' s =>
    cases h
    rfl

theorem exists_eq_ok_of_errorOf {r : EStateM.Result Error σ α} (h : errorOf r = none) :
    ∃ a, r = .ok a (stateOf r) := by
  cases r with
  | ok a s => exact ⟨a, rfl⟩
  | error e s => cases h

theorem run_bind (x : EStateM Error σ α) (f : α → EStateM Error σ β) (s : σ) :
    (x >>= f).run s = match x.run s with
      | .ok a s => (f a).run s
      | .error e s => .error e s := by
  show EStateM.bind x f s = _
  unfold EStateM.bind EStateM.run
  cases x s <;> rfl

end Run

namespace Program

variable {p p' p'' : Program}

/-- The invariants of every program a session holds. -/
structure Wf (p : Program) : Prop where
  store : p.store.Wf
  slots : p.arena.SlotsBelow p.store.numVars
  recorded : ∀ e ∈ p.entriesAt.toList, ∀ id ∈ e.2.toList, p.arena.Chained p.store.chains id
  synthesized : ∀ e ∈ p.synthesized.toList, p.arena.Chained p.store.chains e.2
  functions : ∀ e ∈ p.functions.toList, e.2.key = e.1 ∧ e.2.forcedWild ≠ some Reason.arrayDecl

/-- The arena and the store only grew. -/
structure Evolves (p p' : Program) : Prop where
  arena : p.arena.Extends p'.arena
  store : p.store.Grows p'.store

theorem Evolves.refl (p : Program) : p.Evolves p := ⟨Arena.Extends.refl _, Grows.refl _⟩

theorem Evolves.trans (h : p.Evolves p') (h' : p'.Evolves p'') : p.Evolves p'' :=
  ⟨h.arena.trans h'.arena, h.store.trans h'.store⟩

theorem Evolves.chained {id : Nat} (h : p.Evolves p') (hc : p.arena.Chained p.store.chains id) :
    p'.arena.Chained p'.store.chains id :=
  hc.mono h.arena fun _ hc => h.store.extends.chains.subset hc

theorem Wf.evolve (hw : p.Wf) (he : p.Evolves p') (hs : p'.arena.SlotsBelow p'.store.numVars)
    (hent : p'.entriesAt = p.entriesAt) (hsyn : p'.synthesized = p.synthesized)
    (hfun : p'.functions = p.functions) : p'.Wf where
  store := he.store.wf hw.store
  slots := hs
  recorded e he' id hid := he.chained (hw.recorded e (hent ▸ he') id hid)
  synthesized e he' := he.chained (hw.synthesized e (hsyn ▸ he'))
  functions e he' := hw.functions e (hfun ▸ he')

theorem Wf.withStore {cs : ConstraintStore} (hw : p.Wf) (hg : p.store.Grows cs) :
    ({ p with store := cs } : Program).Wf ∧ p.Evolves { p with store := cs } :=
  have he : p.Evolves { p with store := cs } := ⟨Arena.Extends.refl _, hg⟩
  ⟨hw.evolve he (hw.slots.mono hg.extends.numVars_le) rfl rfl rfl, he⟩

theorem Wf.withBuilds {cs : ConstraintStore} {a : Arena} {ids : List Nat} (hw : p.Wf)
    (hb : Arena.Builds p.arena p.store ids a cs) :
    ({ p with arena := a, store := cs } : Program).Wf ∧ p.Evolves { p with arena := a, store := cs } :=
  have he : p.Evolves { p with arena := a, store := cs } := ⟨hb.arena, hb.store⟩
  ⟨hw.evolve he hb.slots rfl rfl rfl, he⟩

/-! ## Changes and operations that keep the invariants -/

/-- A change of program that keeps the invariants and only grows arena and store. -/
def Preserves (f : Program → Program) : Prop := ∀ p, p.Wf → (f p).Wf ∧ p.Evolves (f p)

theorem Preserves.id : Preserves fun p => p := fun p hw => ⟨hw, Evolves.refl p⟩

theorem Preserves.comp {f g : Program → Program} (hf : Preserves f) (hg : Preserves g) :
    Preserves fun p => g (f p) := by
  intro p hw
  obtain ⟨hw', he⟩ := hf p hw
  obtain ⟨hw'', he'⟩ := hg _ hw'
  exact ⟨hw'', he.trans he'⟩

theorem Preserves.foldl {β : Type} {l : List β} {f : Program → β → Program}
    (hf : ∀ x ∈ l, Preserves fun p => f p x) : Preserves fun p => l.foldl f p := by
  induction l with
  | nil => exact Preserves.id
  | cons x xs ih =>
    exact (hf x List.mem_cons_self).comp (ih fun y hy => hf y (List.mem_cons_of_mem x hy))

/-- A change that keeps the invariants of programs with at least `n` slots. -/
def PreservesFrom (n : Nat) (f : Program → Program) : Prop :=
  ∀ p, p.Wf → n ≤ p.store.numVars → (f p).Wf ∧ p.Evolves (f p)

theorem PreservesFrom.comp {n : Nat} {f g : Program → Program} (hf : PreservesFrom n f)
    (hg : PreservesFrom n g) : PreservesFrom n fun p => g (f p) := by
  intro p hw hn
  obtain ⟨hw', he⟩ := hf p hw hn
  obtain ⟨hw'', he'⟩ := hg _ hw' (Nat.le_trans hn he.store.extends.numVars_le)
  exact ⟨hw'', he.trans he'⟩

theorem PreservesFrom.foldl {n : Nat} {β : Type} {l : List β} {f : Program → β → Program}
    (hf : ∀ x ∈ l, PreservesFrom n fun p => f p x) : PreservesFrom n fun p => l.foldl f p := by
  induction l with
  | nil => exact fun p hw _ => ⟨hw, Evolves.refl p⟩
  | cons x xs ih =>
    exact (hf x List.mem_cons_self).comp (ih fun y hy => hf y (List.mem_cons_of_mem x hy))

theorem preserves_store {f : Program → ConstraintStore}
    (hf : ∀ p : Program, p.Wf → p.store.Grows (f p)) : Preserves fun p => { p with store := f p } :=
  fun p hw => hw.withStore (hf p hw)

/-- Run from `p`, the operation leaves a well-formed program grown from `p`. -/
def KeepsAt {α : Type} (p : Program) (m : ProgramM α) : Prop :=
  (stateOf (m.run p)).Wf ∧ p.Evolves (stateOf (m.run p))

/-- An operation that keeps the invariants and only grows arena and store, whatever its outcome. -/
def Keeps {α : Type} (m : ProgramM α) : Prop := ∀ p, p.Wf → KeepsAt p m

section Keeps

variable {α β : Type}

theorem keepsAt_of_wf {m : ProgramM α} {p p' : Program} (hs : stateOf (m.run p) = p') (hw : p'.Wf)
    (he : p.Evolves p') : KeepsAt p m := by
  rw [KeepsAt, hs]
  exact ⟨hw, he⟩

theorem keeps_pure (a : α) : Keeps (pure a : ProgramM α) := fun p hw => ⟨hw, Evolves.refl p⟩

theorem keeps_throw (e : Error) : Keeps (throw e : ProgramM α) := fun p hw => ⟨hw, Evolves.refl p⟩

theorem keeps_get : Keeps (get : ProgramM Program) := fun p hw => ⟨hw, Evolves.refl p⟩

theorem keeps_modify {f : Program → Program} (hf : Preserves f) : Keeps (modify f : ProgramM Unit) :=
  fun p hw => hf p hw

theorem KeepsAt.bind {p : Program} {x : ProgramM α} {f : α → ProgramM β} (hx : KeepsAt p x)
    (hf : ∀ a, Keeps (f a)) : KeepsAt p (x >>= f) := by
  unfold KeepsAt at hx ⊢
  rw [run_bind]
  cases h : x.run p with
  | ok a s =>
    rw [h] at hx
    obtain ⟨hw', he'⟩ := hf a s hx.1
    exact ⟨hw', hx.2.trans he'⟩
  | error e s =>
    rw [h] at hx
    exact hx

theorem Keeps.bind {x : ProgramM α} {f : α → ProgramM β} (hx : Keeps x) (hf : ∀ a, Keeps (f a)) :
    Keeps (x >>= f) :=
  fun p hw => (hx p hw).bind hf

theorem keeps_forIn {l : List α} {init : β} {f : α → β → ProgramM (ForInStep β)}
    (hf : ∀ a b, Keeps (f a b)) : Keeps (forIn l init f) := by
  induction l generalizing init with
  | nil => exact keeps_pure init
  | cons x xs ih =>
    rw [List.forIn_cons]
    refine (hf x init).bind fun r => ?_
    cases r with
    | done b => exact keeps_pure b
    | yield b => exact ih

theorem keeps_foldlM {l : List α} {init : β} {f : β → α → ProgramM β} (hf : ∀ b a, Keeps (f b a)) :
    Keeps (l.foldlM f init) := by
  induction l generalizing init with
  | nil => exact keeps_pure init
  | cons x xs ih =>
    rw [List.foldlM_cons]
    exact (hf init x).bind fun b => ih

theorem keeps_mapM {l : List α} {f : α → ProgramM β} (hf : ∀ a, Keeps (f a)) : Keeps (l.mapM f) := by
  rw [List.mapM_eq_reverse_foldlM_cons]
  exact (keeps_foldlM fun b a => (hf a).bind fun c => keeps_pure (c :: b)).bind fun l => keeps_pure _

theorem keeps_get_bind {f : Program → ProgramM β} (hf : ∀ p, p.Wf → KeepsAt p (f p)) :
    Keeps (get >>= f) := by
  intro p hw
  have h := hf p hw
  unfold KeepsAt at h ⊢
  rwa [run_bind, run_get]

theorem keeps_ite {c : Prop} [Decidable c] {x y : ProgramM α} (hx : Keeps x) (hy : Keeps y) :
    Keeps (if c then x else y) := by
  split
  · exact hx
  · exact hy

end Keeps

/-! ## Recording entries -/

variable {id : Nat} {key : DeclKey} {reason : String} {loc : Option SourceLoc}

theorem preserves_forceWild (hr : reason ≠ Reason.arrayDecl) :
    Preserves fun p => p.forceWild id reason loc :=
  preserves_store fun _ hw => Arena.growsFrom_constrainToWild hw.slots hr id _ (Nat.le_refl _)

theorem Wf.buildEntry (hw : p.Wf) (name : String) (ty : TypeShape) (ann : Annotations) :
    (p.buildEntry name ty ann).2.Wf ∧ p.Evolves (p.buildEntry name ty ann).2 ∧
      (p.buildEntry name ty ann).2.arena.Chained (p.buildEntry name ty ann).2.store.chains
        (p.buildEntry name ty ann).1 := by
  have hb := Arena.builds_build p.arena p.store name hw.slots ty ann
  obtain ⟨hw', he⟩ := hw.withBuilds hb
  exact ⟨hw', he, hb.chained _ (List.mem_singleton_self _)⟩

theorem Wf.recordAt (hw : p.Wf) (key : DeclKey) (hc : p.arena.Chained p.store.chains id) :
    (p.recordAt key id).Wf where
  store := hw.store
  slots := hw.slots
  recorded e he x hx := by
    rcases SortedMap.mem_alter_snd he with he | he | ⟨k, w, hw', he⟩
    · exact hw.recorded e he x hx
    · rw [he] at hx
      rcases SortedSet.mem_insert hx with rfl | hx
      · exact hc
      · cases hx
    · rw [he] at hx
      rcases SortedSet.mem_insert hx with rfl | hx
      · exact hc
      · exact hw.recorded _ hw' x hx
  synthesized := hw.synthesized
  functions := hw.functions

theorem Wf.insertSynthesized (hw : p.Wf) (hc : p.arena.Chained p.store.chains id) (u : String) :
    ({ p with synthesized := p.synthesized.insert u id } : Program).Wf where
  store := hw.store
  slots := hw.slots
  recorded := hw.recorded
  synthesized e he := by
    rcases SortedMap.mem_insert he with he | he
    · exact hw.synthesized e he
    · rw [he]
      exact hc
  functions := hw.functions

theorem Wf.forcedWild_ne (hw : p.Wf) {f : FunctionDecl} (hf : p.functions.find? key = some f) :
    f.forcedWild ≠ some Reason.arrayDecl := by
  obtain ⟨k, hk, -⟩ := SortedMap.mem_of_find? hf
  exact (hw.functions _ hk).2

/-- Forces an entry to `wild` for a reason, if there is one. -/
def forceWildOpt (o : Option String) (id : Nat) (loc : Option SourceLoc) (p : Program) : Program :=
  match o with
  | some r => p.forceWild id r loc
  | none => p

theorem preserves_forceWildOpt {o : Option String} (ho : o ≠ some Reason.arrayDecl) (id : Nat)
    (loc : Option SourceLoc) : Preserves (forceWildOpt o id loc) := by
  cases o with
  | none => exact Preserves.id
  | some r => exact preserves_forceWild fun h => ho (by rw [h])

/-! ## Looking up declarations -/

theorem keeps_synthesize (def_ : DeclKey) : Keeps (synthesize def_) := by
  unfold synthesize
  refine keeps_get_bind fun p hw => ?_
  split
  · exact keeps_pure _ p hw
  · split
    · exact keeps_throw _ p hw
    · next f hf =>
      obtain ⟨hw1, he1, hc1⟩ := hw.buildEntry def_.name f.ty { itype := f.itype, boundsInterop := f.boundsInterop }
      rcases hb : p.buildEntry def_.name f.ty { itype := f.itype, boundsInterop := f.boundsInterop } with ⟨id, p1⟩
      rw [hb] at hw1 he1 hc1
      obtain ⟨hw2, he2⟩ := preserves_forceWildOpt (hw.forcedWild_ne hf) id (some def_.loc) p1 hw1
      have he := he1.trans he2
      exact keepsAt_of_wf rfl (Wf.insertSynthesized hw2 (he2.chained hc1) _) ⟨he.arena, he.store⟩

theorem keeps_outOfContextFunction (key : DeclKey) : Keeps (outOfContextFunction key) := by
  unfold outOfContextFunction
  refine keeps_get_bind fun p hw => ?_
  split
  · exact keeps_throw _ p hw
  · split
    · exact keeps_pure _ p hw
    · split
      · exact keeps_pure _ p hw
      · exact keeps_synthesize key p hw

theorem keeps_declarationOf (key : DeclKey) : Keeps (declarationOf key) :=
  keeps_outOfContextFunction key

theorem keeps_paramOf (function : DeclKey) (index : Nat) (inContext : Bool) :
    Keeps (paramOf function index inContext) := by
  unfold paramOf
  extract_lets -underBinder jp
  -- after the function entry is found, only reads follow
  have hjp : ∀ fv, Keeps (jp fv) := by
    intro fv
    unfold jp
    refine keeps_get_bind fun p hw => ?_
    split
    · exact keeps_throw _ p hw
    · split
      · exact keeps_pure _ p hw
      · exact keeps_throw _ p hw
  clear_value jp
  split
  · refine keeps_get_bind fun p hw => ?_
    split
    · exact ((keeps_pure _).bind hjp) p hw
    · exact ((keeps_throw _).bind hjp) p hw
  · exact (keeps_outOfContextFunction function).bind hjp

theorem keeps_getVariable (key : DeclKey) (inContext : Bool) : Keeps (getVariable key inContext) := by
  unfold getVariable
  refine keeps_get_bind fun p hw => ?_
  dsimp only
  split
  · exact keeps_pure _ p hw
  · split
    · exact ((keeps_outOfContextFunction key).bind fun _ => keeps_pure _) p hw
    · split
      · exact keeps_paramOf _ _ _ p hw
      · exact keeps_pure _ p hw

/-! ## Resolving expressions -/

theorem keeps_dereferenceM (c : Nat) : Keeps (dereferenceM c) := by
  unfold dereferenceM
  refine keeps_get_bind fun p hw => ?_
  split
  · next r a hd =>
    obtain ⟨hx, hs⟩ := Arena.dereference_ok hw.slots hd
    exact keepsAt_of_wf rfl (hw.evolve ⟨hx, Grows.refl _⟩ hs rfl rfl rfl) ⟨hx, Grows.refl _⟩
  · exact keeps_throw _ p hw

theorem keeps_addressOfM (c : Nat) : Keeps (addressOfM c) := by
  unfold addressOfM
  refine keeps_get_bind fun p hw => ?_
  obtain ⟨hw', he⟩ := hw.withBuilds (Arena.builds_addressOf hw.slots c)
  exact keepsAt_of_wf rfl hw' he

theorem keeps_stringLiteral : Keeps stringLiteral := by
  unfold stringLiteral
  refine keeps_get_bind fun p hw => ?_
  have hstep : StoreStep p.store.fresh.2 (p.store.fresh.2.addGeq p.store.numVars .ntArr
      Reason.stringLiteral none).2 := StoreStep.addGeq (by simp) fun h => absurd h (by decide)
  have hstore := (StoreStep.fresh p.store).grows.trans hstep.grows
  have hb : Arena.Builds p.arena p.store [] (p.arena.alloc (.pointer ⟨"<string literal>", "char",
      [p.store.numVars], none, false, none, false, SortedSet.empty⟩)).2
      (p.store.fresh.2.addGeq p.store.numVars .ntArr Reason.stringLiteral none).2 := by
    refine ⟨Arena.extends_alloc _ _, hstore, ?_, fun _ h => nomatch h⟩
    refine (hw.slots.mono hstore.extends.numVars_le).alloc fun pe hpe v hv => ?_
    cases hpe
    rw [List.mem_singleton.1 hv]
    have hle := hstep.extends.numVars_le
    rw [numVars_fresh] at hle
    omega
  obtain ⟨hw', he⟩ := hw.withBuilds hb
  exact keepsAt_of_wf rfl hw' he

theorem keeps_derefAll (cs : SortedSet Nat) : Keeps (derefAll cs) := by
  unfold derefAll
  refine keeps_foldlM fun out c => (keeps_dereferenceM c).bind fun r => ?_
  cases r with
  | some d => exact keeps_pure _
  | none => exact keeps_pure _

mutual

theorem keeps_exprEntries : ∀ e : Expr, Keeps (exprEntries e)
  | .decl key inContext => by
    rw [exprEntries]
    exact keeps_getVariable key inContext
  | .deref e => by
    rw [exprEntries]
    exact (keeps_exprEntries e).bind keeps_derefAll
  | .index e => by
    rw [exprEntries]
    exact (keeps_exprEntries e).bind keeps_derefAll
  | .addrOf e => by
    rw [exprEntries]
    exact (keeps_exprEntries e).bind fun _ =>
      keeps_foldlM fun _ c => (keeps_addressOfM c).bind fun _ => keeps_pure _
  | .call callee => by
    rw [exprEntries]
    exact (keeps_exprEntries callee).bind fun _ => keeps_get.bind fun _ =>
      keeps_get.bind fun _ => keeps_pure _
  | .stringLiteral => by
    rw [exprEntries]
    exact keeps_stringLiteral.bind fun _ => keeps_pure _
  | .conditional bs => by
    rw [exprEntries]
    exact keeps_branchEntries bs
  | .null => by
    rw [exprEntries]
    exact keeps_pure _
  | .other => by
    rw [exprEntries]
    exact keeps_pure _

theorem keeps_branchEntries : ∀ bs : List Expr, Keeps (branchEntries bs)
  | [] => by
    rw [branchEntries]
    exact keeps_pure _
  | b :: bs => by
    rw [branchEntries]
    exact (keeps_exprEntries b).bind fun _ => (keeps_branchEntries bs).bind fun _ => keeps_pure _

end

/-! ## Recording declarations

`addFunction` is read as a composition of small changes (`addFunction_eq`), each kept on its own. -/

/-- Notes whether a function name was seen with a body. -/
def noteBody (d : DeclFact) (p : Program) : Program :=
  { p with bodies := p.bodies.alter d.name fun b => b.getD false || d.isDefinition }

/-- Records one parameter's alternatives at its key, with its owner. -/
def recordParam (d : DeclFact) (p : Program) (x : (ParamShape × SortedSet Nat) × Nat) : Program :=
  match x.1.1.key with
  | some pk =>
    { p with paramOwners := p.paramOwners.insertIfAbsent pk (d.key, x.2),
             entriesAt := p.entriesAt.alter pk fun s => (s.getD SortedSet.empty).union x.1.2 }
  | none => p

/-- Records the parameters of the function entry `id` built for `d`. -/
def recordParams (d : DeclFact) (id : Nat) (p : Program) : Program :=
  match d.ty.function, p.arena.function? id with
  | some shape, some f => ((shape.params.zip f.params).zipIdx).foldl (recordParam d) p
  | _, _ => p

theorem addFunction_eq (p : Program) (d : DeclFact) (ann : Annotations) (forced : Option String) :
    p.addFunction d ann forced =
      let b := p.buildEntry d.name d.ty ann
      let q := recordParams d b.1 (noteBody d ((forceWildOpt forced b.1 (some d.key.loc) b.2).recordAt d.key b.1))
      let fd : FunctionDecl :=
        ⟨d.key, b.1, d.ty, d.isDefinition, d.isGlobal, d.declaration, d.itype, d.boundsInterop, forced⟩
      { q with functions := q.functions.insertIfAbsent d.key fd } :=
  rfl


theorem forcedReason_ne (d : DeclFact) : DeclFact.forcedReason d ≠ some Reason.arrayDecl := by
  unfold DeclFact.forcedReason
  split
  · exact fun h => absurd (Option.some.inj h) (by decide)
  · split
    · exact fun h => absurd (Option.some.inj h) (by decide)
    · exact fun h => nomatch h

theorem Wf.noteBody (hw : p.Wf) (d : DeclFact) : (noteBody d p).Wf :=
  ⟨hw.store, hw.slots, hw.recorded, hw.synthesized, hw.functions⟩

theorem Wf.unionAt (hw : p.Wf) (key : DeclKey) {s : SortedSet Nat}
    (hs : ∀ x ∈ s.toList, p.arena.Chained p.store.chains x) :
    ({ p with entriesAt := p.entriesAt.alter key fun t => (t.getD SortedSet.empty).union s } : Program).Wf where
  store := hw.store
  slots := hw.slots
  recorded e he x hx := by
    rcases SortedMap.mem_alter_snd he with he | he | ⟨k, w, hw', he⟩
    · exact hw.recorded e he x hx
    · rw [he] at hx
      rcases SortedSet.mem_union hx with hx | hx
      · cases hx
      · exact hs x hx
    · rw [he] at hx
      rcases SortedSet.mem_union hx with hx | hx
      · exact hw.recorded _ hw' x hx
      · exact hs x hx
  synthesized := hw.synthesized
  functions := hw.functions

theorem Wf.insertFunction (hw : p.Wf) {fd : FunctionDecl} (hkey : fd.key = key)
    (hforced : fd.forcedWild ≠ some Reason.arrayDecl) :
    ({ p with functions := p.functions.insertIfAbsent key fd } : Program).Wf where
  store := hw.store
  slots := hw.slots
  recorded := hw.recorded
  synthesized := hw.synthesized
  functions e he := by
    rcases SortedMap.mem_insertIfAbsent he with he | rfl
    · exact hw.functions e he
    · exact ⟨hkey, hforced⟩

theorem Wf.recordParam (hw : p.Wf) (d : DeclFact) (x : (ParamShape × SortedSet Nat) × Nat)
    (hs : ∀ y ∈ x.1.2.toList, p.arena.Chained p.store.chains y) :
    (Program.recordParam d p x).Wf ∧ (Program.recordParam d p x).arena = p.arena ∧ (Program.recordParam d p x).store = p.store := by
  unfold Program.recordParam
  split
  · next pk _ =>
    have h := hw.unionAt pk hs
    exact ⟨⟨h.store, h.slots, h.recorded, h.synthesized, h.functions⟩, rfl, rfl⟩
  · exact ⟨hw, rfl, rfl⟩

theorem Wf.foldl_recordParam (d : DeclFact) (l : List ((ParamShape × SortedSet Nat) × Nat)) (hw : p.Wf)
    (hs : ∀ x ∈ l, ∀ y ∈ x.1.2.toList, p.arena.Chained p.store.chains y) :
    (l.foldl (Program.recordParam d) p).Wf ∧ (l.foldl (Program.recordParam d) p).arena = p.arena ∧
      (l.foldl (Program.recordParam d) p).store = p.store := by
  induction l generalizing p with
  | nil => exact ⟨hw, rfl, rfl⟩
  | cons x xs ih =>
    obtain ⟨hw1, ha1, hs1⟩ := hw.recordParam d x (hs x List.mem_cons_self)
    obtain ⟨hw2, ha2, hs2⟩ := ih hw1 fun y hy z hz => by
      rw [ha1, hs1]
      exact hs y (List.mem_cons_of_mem x hy) z hz
    exact ⟨hw2, ha2.trans ha1, hs2.trans hs1⟩

theorem Wf.recordParams (hw : p.Wf) (d : DeclFact) (hc : p.arena.Chained p.store.chains id) :
    (Program.recordParams d id p).Wf ∧ (Program.recordParams d id p).arena = p.arena ∧
      (Program.recordParams d id p).store = p.store := by
  unfold Program.recordParams
  split
  · next shape f _ hf =>
    refine hw.foldl_recordParam d _ fun x hx y hy => hc.params hf x.1.2 ?_ y hy
    exact (List.of_mem_zip (List.fst_mem_of_mem_zipIdx hx)).2
  · exact ⟨hw, rfl, rfl⟩

theorem preserves_addFunction (d : DeclFact) (ann : Annotations) (forced : Option String)
    (hforced : forced ≠ some Reason.arrayDecl) : Preserves fun p => p.addFunction d ann forced := by
  intro p hw
  show (p.addFunction d ann forced).Wf ∧ p.Evolves (p.addFunction d ann forced)
  rw [addFunction_eq]
  obtain ⟨hw1, he1, hc1⟩ := hw.buildEntry d.name d.ty ann
  set b := p.buildEntry d.name d.ty ann
  obtain ⟨hw2, he2⟩ := preserves_forceWildOpt hforced b.1 (some d.key.loc) b.2 hw1
  set p2 := forceWildOpt forced b.1 (some d.key.loc) b.2
  have hc2 := he2.chained hc1
  have hw3 := (hw2.recordAt d.key hc2).noteBody d
  obtain ⟨hw4, ha4, hs4⟩ := hw3.recordParams d hc2
  have he : p.Evolves (recordParams d b.1 (noteBody d (p2.recordAt d.key b.1))) := by
    have he' := he1.trans he2
    exact ⟨ha4 ▸ he'.arena, hs4 ▸ he'.store⟩
  exact ⟨hw4.insertFunction rfl hforced, ⟨he.arena, he.store⟩⟩

theorem preserves_addDeclaration (d : DeclFact) : Preserves fun p => p.addDeclaration d := by
  intro p hw
  show (p.addDeclaration d).Wf ∧ p.Evolves (p.addDeclaration d)
  unfold addDeclaration
  generalize hp0 : ({ p with files := p.files.alter d.key.file fun r => r.getD true && d.rewritable } :
    Program) = p0
  dsimp only
  have hw0 : p0.Wf := hp0 ▸ ⟨hw.store, hw.slots, hw.recorded, hw.synthesized, hw.functions⟩
  have he0 : p.Evolves p0 := hp0 ▸ ⟨Arena.Extends.refl _, Grows.refl _⟩
  have hforced := forcedReason_ne d
  split
  · -- a function declaration or definition
    obtain ⟨hw1, he1⟩ := preserves_addFunction d _ _ hforced p0 hw0
    exact ⟨hw1, he0.trans he1⟩
  split
  · -- a parameter of a recorded function takes the declaration's policy
    split
    · next r hr =>
      have hr' : r ≠ Reason.arrayDecl := fun h => hforced (by rw [hr, h])
      obtain ⟨hw1, he1⟩ := hw0.withStore
        (Arena.growsFrom_constrainSetToWild hw0.slots hr' _ _ (Nat.le_refl _))
      exact ⟨hw1, he0.trans he1⟩
    · exact ⟨hw0, he0⟩
  split
  · exact ⟨hw0, he0⟩
  -- any other declaration with a level builds one pointer entry
  obtain ⟨hw1, he1, hc1⟩ := hw0.buildEntry d.name d.ty
    { itype := d.itype, boundsInterop := d.boundsInterop, hasBody := d.isDefinition }
  rcases hb : p0.buildEntry d.name d.ty
    { itype := d.itype, boundsInterop := d.boundsInterop, hasBody := d.isDefinition } with ⟨id, p1⟩
  rw [hb] at hw1 he1 hc1
  obtain ⟨hw2, he2⟩ := preserves_forceWildOpt hforced id (some d.key.loc) p1 hw1
  have hw3 := hw2.recordAt d.key (he2.chained hc1)
  have he := he0.trans (he1.trans he2)
  dsimp only
  split
  · exact ⟨⟨hw3.store, hw3.slots, hw3.recorded, hw3.synthesized, hw3.functions⟩, ⟨he.arena, he.store⟩⟩
  · exact ⟨hw3, ⟨he.arena, he.store⟩⟩

/-! ## Relating entries -/

theorem keeps_updateStore {f : Arena → ConstraintStore → ConstraintStore}
    (hf : ∀ p : Program, p.Wf → p.store.Grows (f p.arena p.store)) : Keeps (updateStore f) :=
  keeps_modify (preserves_store hf)

theorem keeps_forceSetWild (s : SortedSet Nat) (hr : reason ≠ Reason.arrayDecl) :
    Keeps (forceSetWild s reason loc) :=
  keeps_updateStore fun _ hw => Arena.growsFrom_constrainSetToWild hw.slots hr s _ (Nat.le_refl _)

theorem preserves_bindOne (f a : Nat) (hr : reason ≠ Reason.arrayDecl) :
    Preserves fun p => { p with store := p.arena.constrainEq p.store f a reason loc,
                                arena := p.arena.recordArgument f a } := by
  intro p hw
  have hg : p.store.Grows (p.arena.constrainEq p.store f a reason loc) :=
    Arena.growsFrom_constrainEq hw.slots hr f a p.store (Nat.le_refl _)
  have he : p.Evolves { p with store := p.arena.constrainEq p.store f a reason loc,
                               arena := p.arena.recordArgument f a } :=
    ⟨Arena.extends_recordArgument _ _ _, hg⟩
  refine ⟨hw.evolve he ?_ rfl rfl rfl, he⟩
  exact (hw.slots.of_extends (Arena.recordArgument_extends _ _ _)).mono hg.extends.numVars_le

theorem keeps_bind (formal actual : SortedSet Nat) (hr : reason ≠ Reason.arrayDecl) :
    Keeps (bind formal actual reason loc) :=
  keeps_modify (Preserves.foldl fun f _ => Preserves.foldl fun a _ => preserves_bindOne f a hr)

theorem keeps_addCall (callee : Expr) (args : List Expr) (result : Option Expr) :
    Keeps (addCall callee args result loc) := by
  unfold addCall
  refine (keeps_exprEntries callee).bind fun _ => keeps_get.bind fun _ => ?_
  refine (keeps_mapM keeps_exprEntries).bind fun argSets => ?_
  dsimp only
  split <;> [refine (keeps_exprEntries _).bind fun resultSet => ?_;
    refine (keeps_pure _).bind fun resultSet => ?_]
  -- what follows is the same whether or not the call's value is stored
  all_goals
    split
    · -- no known callee: every argument and the result are forced to `wild`
      exact (keeps_forIn fun s _ => (keeps_forceSetWild s (by decide)).bind fun _ => keeps_pure _).bind
        fun _ => keeps_pure _
    · refine (keeps_forIn fun f _ => keeps_get.bind fun q => ?_).bind fun _ => keeps_pure _
      split
      · exact keeps_pure _
      · next func _ =>
        refine (keeps_forIn fun x _ => ?_).bind fun _ =>
          (keeps_bind _ _ (by decide)).bind fun _ => keeps_pure _
        obtain ⟨a, i⟩ := x
        dsimp only
        split
        · exact (keeps_bind _ _ (by decide)).bind fun _ => keeps_pure _
        · refine keeps_get.bind fun _ => ?_
          split
          · exact (keeps_forceSetWild _ (by decide)).bind fun _ => keeps_pure _
          · exact keeps_pure _

theorem keeps_addFact (fact : Fact) : Keeps (addFact fact) := by
  cases fact with
  | declare d => exact keeps_pure _
  | assign lhs rhs loc =>
    exact (keeps_exprEntries lhs).bind fun l => (keeps_exprEntries rhs).bind fun r =>
      keeps_updateStore fun _ hw =>
        Arena.growsFrom_constrainEqSets hw.slots (by decide) l r _ (Nat.le_refl _)
  | call callee args result loc => exact keeps_addCall callee args result
  | ret function e loc =>
    refine (keeps_getVariable function true).bind fun funcs => (keeps_exprEntries e).bind
      fun value => (keeps_forIn fun f _ => keeps_get.bind fun _ => ?_).bind fun _ => keeps_pure _
    split
    · exact (keeps_updateStore fun _ hw =>
        Arena.growsFrom_constrainEqSets hw.slots (by decide) _ _ _ (Nat.le_refl _)).bind
          fun _ => keeps_pure _
    · exact keeps_pure _
  | cast e src dst loc =>
    refine keeps_ite ?_ (keeps_pure _)
    exact (keeps_exprEntries e).bind fun s => keeps_forceSetWild s (by decide)
  | arithmetic e loc =>
    refine (keeps_exprEntries e).bind fun s =>
      (keeps_forIn fun c _ => keeps_get_bind fun q hw => ?_).bind fun _ => keeps_pure _
    split
    · next v hv =>
      -- the bounded slot is the outermost slot of an entry, so it is registered
      obtain ⟨pe, hpe, hhead⟩ := Option.bind_eq_some_iff.1 hv
      have hreg : v < q.store.numVars := hw.slots c pe hpe v (List.mem_of_mem_head? hhead)
      refine KeepsAt.bind ?_ fun _ => keeps_pure _
      exact (hw.withStore (StoreStep.addGeq hreg fun h => absurd h (by decide)).grows)
    · exact keeps_pure _ q hw

theorem keeps_addFacts (facts : List Fact) : Keeps (addFacts facts) := by
  unfold addFacts
  refine (keeps_modify (Preserves.foldl fun f _ => ?_)).bind fun _ =>
    (keeps_forIn fun f _ => (keeps_addFact f).bind fun _ => keeps_pure _).bind fun _ => keeps_pure _
  cases f with
  | declare d => exact preserves_addDeclaration d
  | _ => exact Preserves.id

/-! ## Linking -/

theorem preserves_equateInSequence (ids : List Nat) (loc : Option SourceLoc) :
    Preserves fun p => p.equateInSequence ids loc := by
  unfold equateInSequence
  refine Preserves.foldl fun x _ => ?_
  obtain ⟨a, b⟩ := x
  exact preserves_store fun _ hw => Arena.growsFrom_constrainEq hw.slots (by decide) a b _ (Nat.le_refl _)

theorem preserves_pinItype (id : Nat) : Preserves fun p => (p.pinItype id).2 := by
  intro p hw
  show (p.pinItype id).2.Wf ∧ p.Evolves (p.pinItype id).2
  unfold pinItype
  split
  · next ptr hptr =>
    split
    · next q v _ hv =>
      -- the pinned slot is the outermost slot of the entry, so it is registered
      have hreg : v < p.store.numVars := hw.slots id ptr hptr v (List.mem_of_mem_head? hv)
      exact hw.withStore (StoreStep.addEq (by simpa using hreg) (by simp) (by decide)).grows
    · exact ⟨hw, Evolves.refl p⟩
  · exact ⟨hw, Evolves.refl p⟩

theorem preserves_forceInnerLevels (id : Nat) (hr : reason ≠ Reason.arrayDecl) :
    Preserves fun p => p.forceInnerLevels id reason := by
  intro p hw
  show (p.forceInnerLevels id reason).Wf ∧ p.Evolves (p.forceInnerLevels id reason)
  unfold forceInnerLevels
  split
  · next ptr hptr =>
    -- every inner slot is a slot of the entry, registered before the first is forced
    have hinner : PreservesFrom p.store.numVars fun q => (ptr.slots.drop 1).foldl
        (fun p v => { p with store := (p.store.addWild v reason none).2 }) q := by
      refine PreservesFrom.foldl fun v hv q hq hn => hq.withStore ?_
      have hreg := hw.slots id ptr (Arena.pointer?_eq_some.2 hptr) v (List.mem_of_mem_drop hv)
      exact (StoreStep.addWild (Nat.lt_of_lt_of_le hreg hn) hr).grows
    obtain ⟨hw1, he1⟩ := hinner p hw (Nat.le_refl _)
    dsimp only
    split
    · obtain ⟨hw2, he2⟩ := preserves_forceWild hr _ hw1
      exact ⟨hw2, he1.trans he2⟩
    · exact ⟨hw1, he1⟩
  · exact preserves_forceWild hr p hw
  · exact ⟨hw, Evolves.refl p⟩

theorem preserves_applyExternPolicy (id : Nat) : Preserves fun p => p.applyExternPolicy id := by
  intro p hw
  show (p.applyExternPolicy id).Wf ∧ p.Evolves (p.applyExternPolicy id)
  unfold applyExternPolicy
  split
  · exact ⟨hw, Evolves.refl p⟩
  · dsimp only
    refine ((Preserves.foldl fun r _ => ?_).comp (Preserves.foldl fun q _ => ?_)) p hw
    · intro p' hw'
      obtain ⟨hw1, he1⟩ := preserves_pinItype r p' hw'
      dsimp only
      split
      · obtain ⟨hw2, he2⟩ := preserves_forceInnerLevels r
          (by decide : Reason.externReturn ≠ Reason.arrayDecl) _ hw1
        exact ⟨hw2, he1.trans he2⟩
      · obtain ⟨hw2, he2⟩ := preserves_forceWild
          (by decide : Reason.externReturn ≠ Reason.arrayDecl) _ hw1
        exact ⟨hw2, he1.trans he2⟩
    · exact (preserves_pinItype q).comp (preserves_forceInnerLevels q (by decide))

theorem keeps_linkGroups : Keeps linkGroups := by
  unfold linkGroups
  refine keeps_get.bind fun _ => (keeps_modify (Preserves.foldl fun x _ => ?_)).bind fun _ =>
    keeps_get.bind fun _ => (keeps_modify (Preserves.foldl fun s _ => ?_)).bind fun _ => keeps_pure _
  · obtain ⟨k, s⟩ := x
    exact preserves_equateInSequence s.toList (some k.loc)
  · exact preserves_equateInSequence s.toList none

theorem keeps_linkFunctions : Keeps linkFunctions := by
  unfold linkFunctions
  refine keeps_get.bind fun _ => ?_
  dsimp only
  split <;> [refine keeps_get.bind fun _ => (keeps_forIn fun def_ byName => ?_).bind fun byName =>
      (keeps_forIn fun decls pairs => ?_).bind fun pairs => ?_; skip]
  · refine keeps_get.bind fun _ => keeps_ite ?_ (keeps_pure _)
    exact (keeps_declarationOf def_).bind fun _ => keeps_pure _
  · exact (keeps_modify (preserves_equateInSequence decls none)).bind fun _ => keeps_pure _
  -- the extern policy, whichever way the declarations were equated
  all_goals
    refine keeps_get.bind fun _ => (keeps_forIn fun name _ => ?_).bind fun _ => keeps_pure _
    exact keeps_get.bind fun _ =>
      (keeps_modify (Preserves.foldl fun id _ => preserves_applyExternPolicy id)).bind fun _ => keeps_pure _

theorem keeps_link : Keeps link :=
  keeps_linkGroups.bind fun _ => keeps_linkFunctions.bind fun _ => keeps_pure _

end Program

end CheckedPointers
