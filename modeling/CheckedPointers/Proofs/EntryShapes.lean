import CheckedPointers.Proofs.Refs
/-!
# Entries have the shape of their types

Building an entry from a type shape gives it that shape's structure (`Arena.ShapedAs`): a bare
function type gives a function entry with one return alternative and one alternative per
parameter, each shaped by its own type; any other type gives a pointer entry with one slot per
level and an embedded function shaped by the signature, if there is one (`Arena.shapedAs_build`).
The arena only appends entries and never changes a pointer's slots or function or a function's
returns and parameters, so an entry keeps its shape as the arena grows (`Arena.ShapedAs.mono`).

So every function recorded in a program has a bare function type and an entry of that type's
shape (`Program.FunctionsShaped`): recording declarations keeps it, every other operation leaves
the functions alone and only grows the arena, and so it holds in every session a client reaches
(`Session.Reachable.functionsShaped`). Two entries of one type have as many parameters, with as
many slots at each position (`Arena.paramSlotCounts_of_shapedAs`).
-/

namespace CheckedPointers

namespace Arena

variable {a a' : Arena} {id : Nat}

theorem Appends.extends (h : a.Appends a') : a.Extends a' :=
  ⟨h.size_le, fun _ e he => ⟨e, (h.get?_eq (lt_size_of_get? he)).trans he, rfl⟩⟩

/-! ## The shape of an entry -/

mutual

/-- The entry `id` has the structure that building the type shape `ty` gives it. -/
def ShapedAs (ar : Arena) : Nat → TypeShape → Prop
  | id, ⟨_, [], some f⟩ => ar.FunctionShapedAs id f
  | id, ⟨_, levels, function⟩ =>
    ∃ pe, ar.pointer? id = some pe ∧ pe.slots.length = levels.length ∧
      ar.EmbeddedShapedAs pe.function function

/-- A pointer's embedded function has the structure of its type's signature. -/
def EmbeddedShapedAs (ar : Arena) : Option Nat → Option FunctionShape → Prop
  | none, none => True
  | some id, some f => ar.FunctionShapedAs id f
  | _, _ => False

/-- The function entry `id` has one return alternative and one alternative per parameter, each
shaped by its type. -/
def FunctionShapedAs (ar : Arena) : Nat → FunctionShape → Prop
  | id, ⟨ret, params, _, _⟩ =>
    ∃ fe, ar.function? id = some fe ∧ (∃ r, fe.returns = SortedSet.singleton r ∧ ar.ShapedAs r ret) ∧
      ar.ParamsShapedAs fe.params params

/-- Each parameter position holds one alternative, shaped by the parameter's type. -/
def ParamsShapedAs (ar : Arena) : List (SortedSet Nat) → List ParamShape → Prop
  | [], [] => True
  | s :: ss, ⟨_, ty, _, _⟩ :: ps =>
    (∃ x, s = SortedSet.singleton x ∧ ar.ShapedAs x ty) ∧ ar.ParamsShapedAs ss ps
  | _, _ => False

end

theorem shapedAs_pointer_iff {base : String} {levels : List Level} {function : Option FunctionShape}
    (h : levels ≠ [] ∨ function = none) :
    a.ShapedAs id ⟨base, levels, function⟩ ↔
      ∃ pe, a.pointer? id = some pe ∧ pe.slots.length = levels.length ∧
        a.EmbeddedShapedAs pe.function function := by
  rw [ShapedAs.eq_2]
  rintro f rfl rfl
  simp at h

mutual

theorem ShapedAs.mono (h : a.Extends a') : ∀ (id : Nat) (ty : TypeShape), a.ShapedAs id ty → a'.ShapedAs id ty
  | id, ⟨_, [], some f⟩, hs => FunctionShapedAs.mono h id f hs
  | id, ⟨_, [], none⟩, hs => by
    rw [shapedAs_pointer_iff (.inr rfl)] at hs ⊢
    obtain ⟨pe, hp, hlen, hemb⟩ := hs
    obtain ⟨pe', hp', hslots, hfun⟩ := h.pointer? hp
    exact ⟨pe', hp', hslots ▸ hlen, hfun ▸ EmbeddedShapedAs.mono h _ _ hemb⟩
  | id, ⟨_, l :: ls, function⟩, hs => by
    rw [shapedAs_pointer_iff (.inl (List.cons_ne_nil l ls))] at hs ⊢
    obtain ⟨pe, hp, hlen, hemb⟩ := hs
    obtain ⟨pe', hp', hslots, hfun⟩ := h.pointer? hp
    exact ⟨pe', hp', hslots ▸ hlen, hfun ▸ EmbeddedShapedAs.mono h _ _ hemb⟩

theorem EmbeddedShapedAs.mono (h : a.Extends a') :
    ∀ (id : Option Nat) (f : Option FunctionShape), a.EmbeddedShapedAs id f → a'.EmbeddedShapedAs id f
  | none, none, _ => trivial
  | some id, some f, hs => FunctionShapedAs.mono h id f hs
  | none, some _, hs => hs.elim
  | some _, none, hs => hs.elim

theorem FunctionShapedAs.mono (h : a.Extends a') :
    ∀ (id : Nat) (f : FunctionShape), a.FunctionShapedAs id f → a'.FunctionShapedAs id f
  | _, ⟨ret, params, _, _⟩, ⟨fe, hf, ⟨r, hr, hret⟩, hps⟩ =>
    ⟨fe, h.function? hf, ⟨r, hr, ShapedAs.mono h r ret hret⟩, ParamsShapedAs.mono h fe.params params hps⟩

theorem ParamsShapedAs.mono (h : a.Extends a') :
    ∀ (sets : List (SortedSet Nat)) (ps : List ParamShape), a.ParamsShapedAs sets ps →
      a'.ParamsShapedAs sets ps
  | [], [], _ => trivial
  | _ :: ss, ⟨_, ty, _, _⟩ :: ps, ⟨⟨x, hx, hty⟩, hrest⟩ =>
    ⟨⟨x, hx, ShapedAs.mono h x ty hty⟩, ParamsShapedAs.mono h ss ps hrest⟩
  | [], _ :: _, hs => hs.elim
  | _ :: _, [], hs => hs.elim

end

/-! ## Building gives the shape -/

mutual

theorem shapedAs_build (a : Arena) (cs : ConstraintStore) (name : String) :
    ∀ (ty : TypeShape) (ann : Annotations),
      (a.build cs name ty ann).2.1.ShapedAs (a.build cs name ty ann).1 ty
  | ⟨base, [], some f⟩, ann => by
    rw [build.eq_1, ShapedAs]
    exact shapedAs_buildFunction a cs name f ann
  | ⟨base, [], none⟩, ann => by
    rw [build_pointer a cs name base [] none ann (.inr rfl), shapedAs_pointer_iff (.inr rfl)]
    exact ⟨_, pointer?_alloc_self _ _, rfl, trivial⟩
  | ⟨base, l :: ls, function⟩, ann => by
    have hne : l :: ls ≠ [] ∨ function = none := .inl (List.cons_ne_nil l ls)
    rw [build_pointer a cs name base (l :: ls) function ann hne, shapedAs_pointer_iff hne]
    dsimp only
    -- one fresh slot per level, then the embedded function, then the pointer itself
    have hslots := (foldl_levelStep (l :: ls) ([], cs)).1
    set r := (l :: ls).foldl levelStep ([], cs)
    have hemb := shapedAs_buildEmbedded a (r.2.registerChain r.1) name function
    refine ⟨_, pointer?_alloc_self _ _, by rw [hslots]; simp, ?_⟩
    exact EmbeddedShapedAs.mono (extends_alloc _ _) _ _ hemb

theorem shapedAs_buildEmbedded (a : Arena) (cs : ConstraintStore) (name : String) :
    ∀ f : Option FunctionShape,
      (a.buildEmbedded cs name f).2.1.EmbeddedShapedAs (a.buildEmbedded cs name f).1 f
  | none => by rw [buildEmbedded]; trivial
  | some f => by
    rw [buildEmbedded_some]
    exact shapedAs_buildFunction a cs name f {}

theorem shapedAs_buildFunction (a : Arena) (cs : ConstraintStore) (name : String) :
    ∀ (f : FunctionShape) (ann : Annotations),
      (a.buildFunction cs name f ann).2.1.FunctionShapedAs (a.buildFunction cs name f ann).1 f
  | ⟨ret, params, hasPrototype, variadic⟩, ann => by
    rw [buildFunction_eq]
    dsimp only
    -- the return, then the parameters, then the function, each keeping what came before
    set r := a.build cs name ret { itype := ann.itype, boundsInterop := ann.boundsInterop }
    set ps := r.2.1.buildParams r.2.2 params
    have hret := shapedAs_build a cs name ret { itype := ann.itype, boundsInterop := ann.boundsInterop }
    have hps := shapedAs_buildParams r.2.1 r.2.2 params
    have hext : r.2.1.Extends ps.2.1 := (appended_buildParams r.2.1 r.2.2 params).appends.extends
    refine ⟨_, function?_alloc_self _ _, ⟨r.1, rfl, ?_⟩, ?_⟩
    · exact ShapedAs.mono ((hext.trans (extends_alloc _ _))) _ _ hret
    · exact ParamsShapedAs.mono (extends_alloc _ _) _ _ hps

theorem shapedAs_buildParams (a : Arena) (cs : ConstraintStore) :
    ∀ ps : List ParamShape,
      (a.buildParams cs ps).2.1.ParamsShapedAs ((a.buildParams cs ps).1.map SortedSet.singleton) ps
  | [] => by rw [buildParams]; trivial
  | ⟨pname, ty, key, itype⟩ :: rest => by
    rw [buildParams_cons]
    dsimp only
    set r := a.build cs pname ty { itype := itype }
    have hext : r.2.1.Extends (r.2.1.buildParams r.2.2 rest).2.1 :=
      (appended_buildParams r.2.1 r.2.2 rest).appends.extends
    exact ⟨⟨r.1, rfl, ShapedAs.mono hext _ _ (shapedAs_build a cs pname ty { itype := itype })⟩,
      shapedAs_buildParams r.2.1 r.2.2 rest⟩

end

/-! ## Counting the slots of parameters -/

/-- The number of slots of an entry; a function has none. -/
def slotCount (ar : Arena) (id : Nat) : Nat := ((ar.pointer? id).map fun pe => pe.slots.length).getD 0

/-- The number of slots of each alternative of each parameter of a function entry. -/
def paramSlotCounts (ar : Arena) (id : Nat) : Option (List (List Nat)) :=
  (ar.function? id).map fun fe => fe.params.map fun s => s.toList.map ar.slotCount

theorem ShapedAs.slotCount {ty : TypeShape} (h : a.ShapedAs id ty) : a.slotCount id = ty.levels.length := by
  obtain ⟨base, levels, function⟩ := ty
  by_cases hf : levels = [] ∧ ∃ f, function = some f
  · obtain ⟨rfl, ⟨ret, params, hasPrototype, variadic⟩, rfl⟩ := hf
    rw [ShapedAs, FunctionShapedAs] at h
    obtain ⟨fe, hfe, -⟩ := h
    simp [Arena.slotCount, pointer?, (function?_eq_some.1 hfe)]
  · have hne : levels ≠ [] ∨ function = none := by
      cases function with
      | none => exact .inr rfl
      | some f => exact .inl fun h => hf ⟨h, f, rfl⟩
    obtain ⟨pe, hp, hlen, -⟩ := (shapedAs_pointer_iff hne).1 h
    simp [Arena.slotCount, hp, hlen]

theorem ParamsShapedAs.slotCounts :
    ∀ {sets : List (SortedSet Nat)} {ps : List ParamShape}, a.ParamsShapedAs sets ps →
      sets.map (fun s => s.toList.map a.slotCount) = ps.map fun p => [p.ty.levels.length]
  | [], [], _ => rfl
  | s :: ss, ⟨_, ty, _, _⟩ :: ps, ⟨⟨x, hx, hty⟩, hrest⟩ => by
    rw [List.map_cons, List.map_cons, hx, SortedSet.toList_singleton, List.map_singleton,
      hty.slotCount, hrest.slotCounts]
  | [], _ :: _, hs => hs.elim
  | _ :: _, [], hs => hs.elim

/-- A function entry shaped by a signature has one parameter per parameter of the signature, with
one alternative of as many slots as that parameter's type has levels. -/
theorem paramSlotCounts_of_shapedAs {f : FunctionShape} (h : a.FunctionShapedAs id f) :
    a.paramSlotCounts id = some (f.params.map fun p => [p.ty.levels.length]) := by
  obtain ⟨ret, params, hasPrototype, variadic⟩ := f
  rw [FunctionShapedAs] at h
  obtain ⟨fe, hfe, -, hps⟩ := h
  simp only [paramSlotCounts, hfe, Option.map_some, hps.slotCounts]

end Arena

namespace Program

variable {p p' : Program}

/-! ## Recorded functions are shaped by their types -/

/-- Every recorded function has a bare function type and an entry of that type's shape. -/
def FunctionsShaped (p : Program) : Prop :=
  ∀ e ∈ p.functions.toList, e.2.ty.isFunction = true ∧ p.arena.ShapedAs e.2.entry e.2.ty

theorem FunctionsShaped.mono (h : p.FunctionsShaped) (ha : p.arena.Extends p'.arena)
    (hf : p'.functions = p.functions) : p'.FunctionsShaped := fun e he =>
  let h' := h e (hf ▸ he)
  ⟨h'.1, Arena.ShapedAs.mono ha _ _ h'.2⟩

theorem FunctionsShaped.growsOnly (h : p.FunctionsShaped) (hg : GrowsOnly p p') : p'.FunctionsShaped :=
  h.mono hg.arena hg.tables.functions

theorem FunctionsShaped.addFunction (h : p.FunctionsShaped) (d : DeclFact) (ann : Annotations)
    (forced : Option String) (hfun : d.ty.isFunction = true) : (p.addFunction d ann forced).FunctionsShaped := by
  have hb := Arena.shapedAs_build p.arena p.store d.name d.ty ann
  have hext := (Arena.appended_build p.arena p.store d.name d.ty ann).appends.extends
  have ha := arena_addFunction p d ann forced
  rw [addFunction_eq]
  dsimp only
  set b := p.buildEntry d.name d.ty ann
  set q := recordParams d b.1 (noteBody d ((forceWildOpt forced b.1 (some d.key.loc) b.2).recordAt d.key b.1))
  have hq : q.functions = p.functions :=
    (recordParams_names d b.1 _).2.trans (forceWildOpt_names forced b.1 (some d.key.loc) b.2).2
  intro e he
  have ha' : q.arena = (p.arena.build p.store d.name d.ty ann).2.1 := by
    rw [addFunction_eq] at ha
    exact ha
  show e.2.ty.isFunction = true ∧ q.arena.ShapedAs e.2.entry e.2.ty
  rw [ha']
  rcases SortedMap.mem_insertIfAbsent he with he | rfl
  · -- an earlier function: its entry is kept by the build
    obtain ⟨h1, h2⟩ := h e (hq ▸ he)
    exact ⟨h1, Arena.ShapedAs.mono hext _ _ h2⟩
  · exact ⟨hfun, hb⟩

theorem FunctionsShaped.addDeclaration (h : p.FunctionsShaped) (d : DeclFact) :
    (p.addDeclaration d).FunctionsShaped := by
  unfold Program.addDeclaration
  generalize hp0 : ({ p with files := p.files.alter d.key.file fun r => r.getD true && d.rewritable } :
    Program) = p0
  have h0 : p0.FunctionsShaped := hp0 ▸ h
  dsimp only
  split
  · next hfun =>
    simp only [Bool.and_eq_true, beq_iff_eq] at hfun
    exact h0.addFunction d _ _ hfun.2
  split
  · -- a parameter of a recorded function: only constraints are added
    split
    · exact h0.mono (Arena.Extends.refl _) rfl
    · exact h0
  split
  · exact h0
  -- any other declaration with a level builds one pointer entry and records no function
  have hext := (Arena.appended_build p0.arena p0.store d.name d.ty
    { itype := d.itype, boundsInterop := d.boundsInterop, hasBody := d.isDefinition }).appends.extends
  have h2 : (forceWildOpt (DeclFact.forcedReason d) (p0.buildEntry d.name d.ty
      { itype := d.itype, boundsInterop := d.boundsInterop, hasBody := d.isDefinition }).1
      (some d.key.loc) (p0.buildEntry d.name d.ty
      { itype := d.itype, boundsInterop := d.boundsInterop, hasBody := d.isDefinition }).2).FunctionsShaped :=
    h0.mono (by rw [arena_forceWildOpt]; exact hext) (forceWildOpt_names _ _ _ _).2
  split
  · exact h2
  · exact h2

theorem FunctionsShaped.foldl {β : Type} {l : List β} {g : Program → β → Program}
    (hg : ∀ x ∈ l, ∀ q : Program, q.FunctionsShaped → (g q x).FunctionsShaped) :
    ∀ q : Program, q.FunctionsShaped → (l.foldl g q).FunctionsShaped := by
  induction l with
  | nil => exact fun _ hq => hq
  | cons x xs ih =>
    intro q hq
    exact ih (fun y hy => hg y (List.mem_cons_of_mem x hy)) _ (hg x List.mem_cons_self q hq)

theorem FunctionsShaped.addFacts (h : p.FunctionsShaped) (hw : p.Wf) (facts : List Fact) :
    (stateOf ((addFacts facts).run p)).FunctionsShaped := by
  unfold Program.addFacts
  rw [run_bind, run_modify]
  -- the declarations first, then the other facts, which record nothing
  refine FunctionsShaped.growsOnly ?_ (growsOnly_of_keeps
    ((keeps_forIn fun f _ => (keeps_addFact f).bind fun _ => keeps_pure _).bind fun _ => keeps_pure _)
    ((keepsTables_forIn fun f _ => (keepsTables_addFact f).bind fun _ => keepsTables_pure _).bind
      fun _ => keepsTables_pure _) ((Preserves.foldl fun f _ => ?_) p hw).1)
  · refine FunctionsShaped.foldl (fun f _ q hq => ?_) p h
    cases f with
    | declare d => exact hq.addDeclaration d
    | _ => exact hq
  · cases f with
    | declare d => exact preserves_addDeclaration d
    | _ => exact Preserves.id

end Program

namespace Session

open Program

variable [UnifyTable] {s s' : Session} {mayFail : Session → Prop} {o : Options}

/-- Every change keeps the recorded functions shaped by their types. -/
theorem Step.functionsShaped (h : Step mayFail s s') (hw : s.program.Wf) (hs : s.program.FunctionsShaped) :
    s'.program.FunctionsShaped := by
  cases h with
  | build facts _ =>
    unfold Session.build
    rw [run_bind, run_onProgram]
    have h1 := hs.addFacts hw facts
    have hw1 := (keeps_addFacts facts s.program hw).1
    cases hr1 : (addFacts facts).run s.program with
    | error e p1 =>
      rw [hr1] at h1
      exact h1
    | ok u p1 =>
      rw [hr1, stateOf_ok] at h1 hw1
      dsimp only
      rw [run_bind, run_onProgram]
      have h2 := h1.growsOnly (growsOnly_of_keeps keeps_link keepsTables_link hw1)
      cases hr2 : link.run p1 with
      | error e p2 =>
        rw [hr2] at h2
        exact h2
      | ok st p2 =>
        rw [hr2] at h2
        exact h2
  | solve =>
    rcases solve_run hw with ⟨-, hr⟩ | ⟨-, r, p, hr, -⟩
    · rw [hr]
      exact hs
    · rw [hr, stateOf_ok]
      exact hs.growsOnly (solve_growsOnly hw hr)
  | commit v scope sp hsp => exact hs.mono (Arena.Extends.refl _) rfl

theorem Reachable.functionsShaped (h : Reachable mayFail o s) : s.program.FunctionsShaped := by
  induction h with
  | refl => exact fun _ h => nomatch h
  | tail hr step ih => exact step.functionsShaped (Reachable.wf hr) ih

end Session

end CheckedPointers
