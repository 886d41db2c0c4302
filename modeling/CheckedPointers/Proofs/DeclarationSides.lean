import CheckedPointers.Proofs.EntryShapes
import CheckedPointers.Proofs.ReconcileRound
/-!
# The declaration side of a function key

A call site sees a recorded function key through `Program.outOfContextFunction`: a declaration
is seen as itself, a definition as the declaration the front end paired it with when that is
recorded, and otherwise as a declaration made up from the definition's type. Made-up
declarations are cached under the definition's unique key, `file:line:name`, with the column left
out on purpose. So the first call for an undeclared definition builds a function entry of the
definition's own type, with as many parameters and as many slots at each position as the
definition's entry, and caches it; from then on a call finds it and changes nothing
(`Program.outOfContextFunction_cases`).

A definition is not the only one with its unique key: another definition on the same line of the
same file, with another column, finds the declaration made up for the first, whatever its own
type (`Program.declaration_shared_by_unique_key`).
-/

namespace CheckedPointers

namespace Program

variable {p : Program} {k : DeclKey} {f : FunctionDecl}

/-! ## One lookup, case by case -/

theorem outOfContextFunction_of_declaration (hf : p.functions.find? k = some f) (hdef : f.isDefinition = false) :
    (outOfContextFunction k).run p = .ok f.entry p := by
  unfold outOfContextFunction
  simp only [run_bind, run_get, hf, hdef, Bool.not_false, if_true]
  rfl

theorem outOfContextFunction_of_paired {fd : FunctionDecl} (hf : p.functions.find? k = some f)
    (hdef : f.isDefinition = true) (hd : f.declaration.bind p.functions.find? = some fd) :
    (outOfContextFunction k).run p = .ok fd.entry p := by
  unfold outOfContextFunction
  simp only [run_bind, run_get, hf, hdef, Bool.not_true, Bool.false_eq_true, if_false, hd]
  rfl

theorem outOfContextFunction_of_undeclared (hf : p.functions.find? k = some f) (hdef : f.isDefinition = true)
    (hd : f.declaration.bind p.functions.find? = none) :
    (outOfContextFunction k).run p = (synthesize k).run p := by
  unfold outOfContextFunction
  simp only [run_bind, run_get, hf, hdef, Bool.not_true, Bool.false_eq_true, if_false, hd]

theorem outOfContextFunction_of_cached {id : Nat} (hf : p.functions.find? k = some f)
    (hdef : f.isDefinition = true) (hd : f.declaration.bind p.functions.find? = none)
    (hsyn : p.synthesizedOf k = some id) : (outOfContextFunction k).run p = .ok id p := by
  rw [outOfContextFunction_of_undeclared hf hdef hd]
  exact synthesize_of_find? hsyn

theorem synthesize_of_uncached (hf : p.functions.find? k = some f) (hsyn : p.synthesizedOf k = none) :
    ∃ p', (synthesize k).run p = .ok (p.arena.build p.store k.name f.ty
        { itype := f.itype, boundsInterop := f.boundsInterop }).1 p' ∧
      p'.arena = (p.arena.build p.store k.name f.ty { itype := f.itype, boundsInterop := f.boundsInterop }).2.1 ∧
      p'.functions = p.functions ∧
      p'.synthesizedOf k = some (p.arena.build p.store k.name f.ty
        { itype := f.itype, boundsInterop := f.boundsInterop }).1 := by
  rcases synthesize_cases k p with ⟨id, hid, -⟩ | ⟨e, h⟩ | ⟨f', -, hf', h⟩
  · rw [synthesizedOf, hid] at hsyn
    cases hsyn
  · -- a recorded key is never refused
    unfold synthesize at h
    simp only [run_bind, run_get, hf] at h
    split at h
    · cases h
    · cases h
  · rw [hf, Option.some.injEq] at hf'
    subst hf'
    refine ⟨_, h, arena_forceWildOpt _ _ _ _, (forceWildOpt_names _ _ _ _).2, ?_⟩
    exact SortedMap.find?_insert_self

theorem FunctionsShaped.of_find? (hs : p.FunctionsShaped) (hf : p.functions.find? k = some f) :
    ∃ fs, f.ty = ⟨f.ty.base, [], some fs⟩ ∧ p.arena.FunctionShapedAs f.entry fs := by
  obtain ⟨k', hk', -⟩ := SortedMap.mem_of_find? hf
  obtain ⟨hfun, hshape⟩ := hs _ hk'
  rcases hty : f.ty with ⟨base, levels, function⟩
  rw [hty] at hfun hshape
  obtain ⟨rfl, fs, rfl⟩ : levels = [] ∧ ∃ fs, function = some fs := by
    simpa [TypeShape.isFunction, List.isEmpty_iff, Option.isSome_iff_exists] using hfun
  refine ⟨fs, rfl, ?_⟩
  rwa [Arena.ShapedAs] at hshape

/-- What a call site sees for a recorded function key: the declaration itself, a definition's
recorded declaration, or the declaration cached, or made and cached, for its unique key. -/
theorem outOfContextFunction_cases (hs : p.FunctionsShaped) (hf : p.functions.find? k = some f) :
    (f.isDefinition = false ∧ (outOfContextFunction k).run p = .ok f.entry p) ∨
      (f.isDefinition = true ∧ ∃ d fd, f.declaration = some d ∧ p.functions.find? d = some fd ∧
        (outOfContextFunction k).run p = .ok fd.entry p) ∨
      (f.isDefinition = true ∧ f.declaration.bind p.functions.find? = none ∧
        ((∃ id, p.synthesizedOf k = some id ∧ (outOfContextFunction k).run p = .ok id p) ∨
          (p.synthesizedOf k = none ∧ ∃ id p', (outOfContextFunction k).run p = .ok id p' ∧
            p'.synthesizedOf k = some id ∧ p'.arena.ShapedAs id f.ty ∧
            (p'.arena.paramSlotCounts id).isSome ∧
            p'.arena.paramSlotCounts id = p'.arena.paramSlotCounts f.entry ∧
            ∀ q : Program, q.functions = p.functions → q.synthesizedOf k = some id →
              (outOfContextFunction k).run q = .ok id q))) := by
  cases hdef : f.isDefinition with
  | false => exact .inl ⟨rfl, outOfContextFunction_of_declaration hf hdef⟩
  | true =>
    right
    cases hd : f.declaration.bind p.functions.find? with
    | some fd =>
      -- the paired declaration is recorded
      obtain ⟨d, hd', hfd⟩ := Option.bind_eq_some_iff.1 hd
      exact .inl ⟨rfl, d, fd, hd', hfd, outOfContextFunction_of_paired hf hdef hd⟩
    | none =>
      refine .inr ⟨rfl, rfl, ?_⟩
      cases hsyn : p.synthesizedOf k with
      | some id => exact .inl ⟨id, rfl, outOfContextFunction_of_cached hf hdef hd hsyn⟩
      | none =>
        right
        refine ⟨rfl, ?_⟩
        obtain ⟨p', hrun, harena, hfun, hcache⟩ := synthesize_of_uncached hf hsyn
        set b := p.arena.build p.store k.name f.ty { itype := f.itype, boundsInterop := f.boundsInterop }
        obtain ⟨fs, hty, hshape⟩ := hs.of_find? hf
        -- the made-up entry and the definition's entry both have the shape of the definition's type
        have hnew : p'.arena.ShapedAs b.1 f.ty := harena ▸ Arena.shapedAs_build _ _ _ _ _
        have hnew' : p'.arena.FunctionShapedAs b.1 fs := by
          rw [hty, Arena.ShapedAs] at hnew
          exact hnew
        have hold : p'.arena.FunctionShapedAs f.entry fs := by
          rw [harena]
          exact Arena.FunctionShapedAs.mono
            (Arena.appended_build p.arena p.store k.name f.ty _).appends.extends _ _ hshape
        refine ⟨b.1, p', ?_, hcache, hnew, ?_, ?_, fun q hq hq' => ?_⟩
        · rw [outOfContextFunction_of_undeclared hf hdef hd]
          exact hrun
        · rw [Arena.paramSlotCounts_of_shapedAs hnew']
          rfl
        · rw [Arena.paramSlotCounts_of_shapedAs hnew', Arena.paramSlotCounts_of_shapedAs hold]
        · have hfq : q.functions.find? k = some f := hq ▸ hf
          have hdq : f.declaration.bind q.functions.find? = none := hq ▸ hd
          exact outOfContextFunction_of_cached hfq hdef hdq hq'

/-- A definition recorded alone is seen from a call site through a declaration made up from its
type. -/
theorem outOfContextFunction_cases_of_undeclared_definition :
    let d : DeclFact := { key := ⟨"a.c", 5, 1, "f"⟩, kind := .function, isDefinition := true
                          ty := ⟨"", [], some ⟨⟨"int", [.pointer], none⟩, [], true, false⟩⟩ }
    let p := (Program.ofOptions {}).addDeclaration d
    p.FunctionsShaped ∧ ∃ f, p.functions.find? d.key = some f ∧
      ((f.isDefinition = false ∧ (outOfContextFunction d.key).run p = .ok f.entry p) ∨
        (f.isDefinition = true ∧ ∃ d' fd, f.declaration = some d' ∧ p.functions.find? d' = some fd ∧
          (outOfContextFunction d.key).run p = .ok fd.entry p) ∨
        (f.isDefinition = true ∧ f.declaration.bind p.functions.find? = none ∧
          ((∃ id, p.synthesizedOf d.key = some id ∧ (outOfContextFunction d.key).run p = .ok id p) ∨
            (p.synthesizedOf d.key = none ∧ ∃ id p', (outOfContextFunction d.key).run p = .ok id p' ∧
              p'.synthesizedOf d.key = some id ∧ p'.arena.ShapedAs id f.ty ∧
              (p'.arena.paramSlotCounts id).isSome ∧
              p'.arena.paramSlotCounts id = p'.arena.paramSlotCounts f.entry ∧
              ∀ q : Program, q.functions = p.functions → q.synthesizedOf d.key = some id →
                (outOfContextFunction d.key).run q = .ok id q)))) := by
  intro d p
  have hs : p.FunctionsShaped :=
    FunctionsShaped.addDeclaration (p := Program.ofOptions {}) (fun _ h => nomatch h) d
  obtain ⟨f, hf⟩ := Option.isSome_iff_exists.1 (by decide +kernel : (p.functions.find? d.key).isSome = true)
  exact ⟨hs, f, hf, outOfContextFunction_cases hs hf⟩

/-! ## Two definitions of one unique key -/

/-- Two definitions of `f` on one line of `a.c` share a unique key, so the second sees the
declaration made up for the first, with no parameter where its own entry has one. -/
theorem declaration_shared_by_unique_key :
    let d₁ : DeclFact := { key := ⟨"a.c", 1, 1, "f"⟩, kind := .function, isDefinition := true
                           ty := ⟨"", [], some ⟨⟨"int", [], none⟩, [], true, false⟩⟩ }
    let d₂ : DeclFact := { key := ⟨"a.c", 1, 5, "f"⟩, kind := .function, isDefinition := true
                           ty := ⟨"", [], some ⟨⟨"int", [], none⟩,
                             [⟨"x", ⟨"int", [.pointer], none⟩, none, none⟩], true, false⟩⟩ }
    let q := stateOf ((declarationOf d₁.key).run
      (((Program.ofOptions {}).addDeclaration d₁).addDeclaration d₂))
    (outOfContextFunction d₂.key).run q = .ok 6 q ∧ q.arena.paramSlotCounts 6 = some [] ∧
      (q.functions.find? d₂.key).map (fun f => (f.isDefinition, f.declaration,
        q.arena.paramSlotCounts f.entry)) = some (true, none, some [[1]]) := by
  intro d₁ d₂ q
  have hq : q.arena.paramSlotCounts 6 = some [] ∧
      (q.functions.find? d₂.key).map (fun f => (f.isDefinition, f.declaration,
        q.arena.paramSlotCounts f.entry)) = some (true, none, some [[1]]) ∧
      q.synthesizedOf d₂.key = some 6 := by decide +kernel
  refine ⟨?_, hq.1, hq.2.1⟩
  obtain ⟨f, hf⟩ := Option.isSome_iff_exists.1 (by decide +kernel : (q.functions.find? d₂.key).isSome = true)
  have hfacts := hq.2.1
  rw [hf, Option.map_some, Option.some.injEq, Prod.mk.injEq, Prod.mk.injEq] at hfacts
  obtain ⟨hdef, hdecl, -⟩ := hfacts
  exact outOfContextFunction_of_cached hf hdef (by rw [hdecl]; rfl) hq.2.2

end Program

end CheckedPointers
