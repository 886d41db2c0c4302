import CheckedPointers.Proofs.CacheForced
/-!
# Declarations that may not be rewritten are `wild` throughout

A declaration inside a macro expansion, or in a file that may not be rewritten, is forced to
`wild` (`DeclFact.forcedReason`). After a build from a fresh session and a solve the forcing
reaches every entry recorded at its key, and the declaration made up for its definition.

* Some entry at the key is forced once the facts are recorded (`Program.keyForced_addFacts`).
  Linking equates the entries of a key one after another, which ties each to the next when they
  have one shape (`Program.tied_link`), so in the solved store all of them are `wild` throughout
  (`Session.recorded_wild_of_forced`).
* A made-up declaration is forced as the functions of its unique key are (`Program.CacheForced`),
  and each recorded function is forced as the declaration that recorded it
  (`Program.FunctionsDeclared`). So it is `wild` throughout when every function declared at its
  file, line and name, whatever the column, is forced (`Session.synthesized_wild_of_forced`).

Each part needs its hypothesis. Entries of two shapes at one key are equated only as far as their
shapes agree. A parameter of function type declared before its function has no level, so nothing
is built for it, and the entry its function records later at its key is never forced
(`Session.early_function_parameter_escapes_forcing`). Definitions that differ only in column share
one made-up declaration, the one made for the first of them.
-/

namespace CheckedPointers

open ConstraintStore

namespace Arena

variable {ar : Arena} {cs : ConstraintStore} {id : Nat}

theorem allWild_of_scalar (hrefs : ar.RefsBelow) {ty : TypeShape} (hlev : ty.levels = [])
    (hfun : ty.function = none) (h : ar.ShapedAs id ty) : ar.AllWild cs id := by
  obtain ⟨base, levels, function⟩ := ty
  dsimp only at hlev hfun
  subst hlev hfun
  obtain ⟨pe, hp, hlen, hemb⟩ := (shapedAs_pointer_iff (.inr rfl)).1 h
  have hnone : pe.function = none := by
    cases hf : pe.function with
    | none => rfl
    | some f =>
      rw [hf] at hemb
      exact hemb.elim
  refine hrefs.allWild_iff.2 ⟨fun pe' hp' v hv => ?_, fun c hc => ?_⟩
  · -- no level, so no slot of its own
    rw [hp, Option.some.injEq] at hp'
    subst hp'
    rw [List.length_eq_zero_iff.1 hlen] at hv
    exact absurd hv List.not_mem_nil
  · -- no signature, so nothing embedded
    simp [children, pointer?_eq_some.1 hp, hnone] at hc

end Arena

namespace Program

variable {p : Program} {k : DeclKey} {ty : TypeShape} {d : DeclFact} {facts : List Fact}

theorem forcedReason_isSome_iff :
    (DeclFact.forcedReason d).isSome ↔ d.inMacro = true ∨ d.rewritable = false := by
  unfold DeclFact.forcedReason
  by_cases hm : d.inMacro <;> by_cases hr : d.rewritable <;> simp [hm, hr]

/-! ## Entries of one shape equated in sequence -/

theorem tied_equateInSequence (loc : Option SourceLoc) (ty : TypeShape) :
    ∀ (ids : List Nat) (p : Program), p.Wf → p.arena.RefsBelow → (∀ id ∈ ids, p.arena.ShapedAs id ty) →
      ids.IsChain (p.arena.WildTied (p.equateInSequence ids loc).store)
  | [], _, _, _, _ => .nil
  | [a], _, _, _, _ => .singleton a
  | a :: b :: rest, p, hw, hrefs, hshape => by
    rw [equateInSequence_cons_cons]
    have hstep : Preserves fun q : Program =>
        { q with store := q.arena.constrainEq q.store a b Reason.link loc } :=
      preserves_store fun q hq => Arena.growsFrom_constrainEq hq.slots (by decide) a b _ (Nat.le_refl _)
    obtain ⟨hw', -⟩ := hstep p hw
    have hrest := tied_equateInSequence loc ty (b :: rest) _ hw' hrefs
      fun id hid => hshape id (List.mem_cons_of_mem a hid)
    have hgrow := (preserves_equateInSequence (b :: rest) loc _ hw').2
    refine List.isChain_cons_cons.2 ⟨?_, hrest⟩
    -- the first pair is tied at once, and the rest only adds constraints
    exact (Arena.wildTied_constrainEq hw.slots hrefs (by decide) ty a b p.store
      (hshape a List.mem_cons_self) (hshape b (List.mem_cons_of_mem a List.mem_cons_self))
      (Nat.le_refl _)).mono hgrow.store.extends.entries

theorem tied_foldl_equateInSequence {β : Type} (ids : β → List Nat) (loc : β → Option SourceLoc)
    {f : Program → β → Program} (hf : ∀ q x, f q x = q.equateInSequence (ids x) (loc x)) :
    ∀ (l : List β) (p : Program), p.Wf → p.arena.RefsBelow → ∀ x ∈ l,
      (∀ id ∈ ids x, p.arena.ShapedAs id ty) → (ids x).IsChain (p.arena.WildTied (l.foldl f p).store)
  | [], _, _, _, _, hx, _ => nomatch hx
  | x :: xs, p, hw, hrefs, y, hy, hshape => by
    have hfeq : f = fun q x => q.equateInSequence (ids x) (loc x) := funext fun q => funext (hf q)
    subst hfeq
    have ha₁ := (linked_equateInSequence (loc x) (ids x) p hw).1
    have hw₁ := (preserves_equateInSequence (ids x) (loc x) p hw).1
    rw [List.foldl_cons]
    rcases List.mem_cons.1 hy with rfl | hy
    · -- the sequence equated first: the later ones only add constraints
      have hgrow := (Preserves.foldl (l := xs) (fun z _ => preserves_equateInSequence (ids z) (loc z)) _ hw₁).2
      exact (tied_equateInSequence (loc y) ty (ids y) p hw hrefs hshape).imp
        fun _ _ hab => hab.mono hgrow.store.extends.entries
    · -- a later one, equated in the same arena
      have h := tied_foldl_equateInSequence ids loc (fun _ _ => rfl) xs _ hw₁ (ha₁ ▸ hrefs) y hy (ha₁ ▸ hshape)
      rwa [ha₁] at h

theorem tied_linkGroups (hp : p.RefsOk) (h : p.KeyShaped k ty) :
    (p.recordedAt k).toList.IsChain (p.arena.WildTied (stateOf (linkGroups.run p)).store) := by
  -- the entries of each key first, then the global variables of each name
  set keys := p.entriesAt.toList.filter fun e => e.2.size > 1
  set p₁ := keys.foldl (fun q x => q.equateInSequence x.2.toList (some x.1.loc)) p
  have hw₁ : p₁.Wf := (Preserves.foldl (l := keys) fun x _ =>
    preserves_equateInSequence x.2.toList (some x.1.loc)) p hp.wf |>.1
  set globals := p₁.globals.values.filter fun s => s.size > 1
  have he₂ := (Preserves.foldl (l := globals) fun s _ => preserves_equateInSequence s.toList none) p₁ hw₁
  show (p.recordedAt k).toList.IsChain
    (p.arena.WildTied (globals.foldl (fun q s => q.equateInSequence s.toList none) p₁).store)
  refine List.IsChain.imp (R := p.arena.WildTied p₁.store) (fun _ _ hab => hab.mono he₂.2.store.extends.entries) ?_
  unfold recordedAt
  cases hk : p.entriesAt.find? k with
  | none => exact .nil
  | some s =>
    rw [Option.getD_some]
    have hshape : ∀ id ∈ s.toList, p.arena.ShapedAs id ty := fun id hid =>
      h.shaped id (by rw [recordedAt, hk]; exact hid)
    rcases Nat.lt_or_ge 1 s.size with hsize | hsize
    · -- a key with more than one entry is equated in sequence
      obtain ⟨k', hk', -⟩ := SortedMap.mem_of_find? hk
      exact tied_foldl_equateInSequence (fun x : DeclKey × SortedSet Nat => x.2.toList)
        (fun x => some x.1.loc) (fun _ _ => rfl) keys p hp.wf hp.refs (k', s)
        (List.mem_filter.2 ⟨hk', by simpa using hsize⟩) hshape
    · -- at most one entry: nothing to tie
      have hlen : s.toList.length ≤ 1 := hsize
      match s.toList, hlen with
      | [], _ => exact .nil
      | [a], _ => exact .singleton a

/-- Linking ties the entries recorded at a key of one shape, one to the next. -/
theorem tied_link (hp : p.RefsOk) (h : p.KeyShaped k ty) :
    (p.recordedAt k).toList.IsChain (p.arena.WildTied (stateOf (link.run p)).store) := by
  have h₂ := tied_linkGroups hp h
  have hw₂ := (keeps_linkGroups p hp.wf).1
  unfold link
  rw [run_bind]
  cases hr : linkGroups.run p with
  | error e q =>
    rw [hr] at h₂
    exact h₂
  | ok r q =>
    rw [hr, stateOf_ok] at h₂ hw₂
    dsimp only
    rw [run_bind]
    -- the last two steps only add constraints
    have hg := growsOnly_of_keeps keeps_linkFunctions keepsTables_linkFunctions hw₂
    refine h₂.imp fun _ _ hab => hab.mono ?_
    cases hr' : linkFunctions.run q with
    | error e q' =>
      rw [hr'] at hg
      exact hg.entries
    | ok r' q' =>
      rw [hr'] at hg
      exact hg.entries

/-! ## Recorded functions -/

/-- Every recorded function was declared as one among `facts`, under its own key, and is forced
exactly as that declaration is. -/
def FunctionsDeclared (facts : List Fact) (p : Program) : Prop :=
  ∀ k f, (k, f) ∈ p.functions.toList → ∃ d, .declare d ∈ facts ∧ d.kind = .function ∧
    d.ty.isFunction = true ∧ d.key = k ∧ f.forcedWild = DeclFact.forcedReason d

theorem FunctionsDeclared.addDeclaration (h : p.FunctionsDeclared facts) (hd : .declare d ∈ facts) :
    (p.addDeclaration d).FunctionsDeclared facts := by
  unfold Program.addDeclaration
  generalize hp0 : ({ p with files := p.files.alter d.key.file fun r => r.getD true && d.rewritable } :
    Program) = p0
  have h0 : p0.FunctionsDeclared facts := hp0 ▸ h
  dsimp only
  split
  · next hfun =>
    simp only [Bool.and_eq_true, beq_iff_eq] at hfun
    rw [addFunction_eq]
    dsimp only
    set b := p0.buildEntry d.name d.ty
      { itype := d.itype, boundsInterop := d.boundsInterop, hasBody := d.isDefinition }
    set q := recordParams d b.1 (noteBody d
      ((forceWildOpt (DeclFact.forcedReason d) b.1 (some d.key.loc) b.2).recordAt d.key b.1))
    -- building the entry and recording its parameters leave the table alone
    have hq : q.functions = p0.functions :=
      (recordParams_names d b.1 _).2.trans (forceWildOpt_names (DeclFact.forcedReason d) b.1 (some d.key.loc) b.2).2
    intro k f he
    rcases SortedMap.mem_insertIfAbsent he with he | he
    · exact h0 k f (hq ▸ he)
    · obtain ⟨rfl, rfl⟩ := Prod.mk.inj he
      exact ⟨d, hd, hfun.1, hfun.2, rfl, rfl⟩
  split
  · -- a parameter of a recorded function: only constraints are added
    split
    · exact h0
    · exact h0
  split
  · exact h0
  -- any other declaration with a level builds one pointer entry and records no function
  set b := p0.buildEntry d.name d.ty
    { itype := d.itype, boundsInterop := d.boundsInterop, hasBody := d.isDefinition }
  have hq : (forceWildOpt (DeclFact.forcedReason d) b.1 (some d.key.loc) b.2).functions = p0.functions :=
    (forceWildOpt_names (DeclFact.forcedReason d) b.1 (some d.key.loc) b.2).2
  have h2 : (forceWildOpt (DeclFact.forcedReason d) b.1 (some d.key.loc) b.2).FunctionsDeclared facts :=
    fun k f he => h0 k f (hq ▸ he)
  split
  · exact h2
  · exact h2

theorem functionsDeclared_addFacts (hp : p.RefsOk) (h : p.FunctionsDeclared facts) :
    (stateOf ((addFacts facts).run p)).FunctionsDeclared facts := by
  -- the declarations are recorded first, and the rest keeps the table
  have hfold : (facts.foldl declareOnly p).FunctionsDeclared facts := by
    refine foldl_keeps (P := FunctionsDeclared facts) (fun f hf q hq => ?_) p h
    cases f with
    | declare d => exact hq.addDeclaration hf
    | _ => exact hq
  intro k f he
  exact hfold k f ((growsOnly_addFacts hp facts).tables.functions ▸ he)

end Program

namespace Session

open Program

variable {s s' s₁ s₂ : Session} {o : Options} {facts : List Fact} {st : LinkStats} {sum : SolveSummary}
  {d : DeclFact}

theorem build_program (hb : (build facts).run s = .ok st s') :
    s'.program = stateOf (link.run (stateOf ((addFacts facts).run s.program))) := by
  unfold build at hb
  rw [run_bind, run_onProgram] at hb
  cases hA : (addFacts facts).run s.program with
  | error e p =>
    rw [hA] at hb
    cases hb
  | ok u p =>
    rw [hA] at hb
    dsimp only at hb
    rw [run_bind, run_onProgram] at hb
    cases hL : link.run p with
    | error e q =>
      rw [hL] at hb
      cases hb
    | ok r q =>
      rw [hL] at hb
      cases hb
      rw [stateOf_ok, hL, stateOf_ok]

theorem keyShaped_create (o : Options) (k : DeclKey) (ty : TypeShape) : (create o).program.KeyShaped k ty :=
  ⟨SortedMap.ascending_empty, (fun _ h => nomatch h), fun h => (Bool.false_ne_true h).elim⟩

section Table

variable [UnifyTable]

theorem solve_closed (hw : s.program.Wf) (hs : solve.run s = .ok sum s') :
    s'.program.store.Closed s'.program.store.env := by
  rcases solve_run hw with ⟨-, hr⟩ | ⟨-, r, p, hr, -, hc, -⟩
  · rw [hr] at hs
    cases hs
  · rw [hr] at hs
    cases hs
    exact hc

/-- After a fresh build and a solve, every entry recorded at a forced declaration's key is `wild`
throughout, given that the declarations there share its type. -/
theorem recorded_wild_of_forced (hb : (build facts).run (create o) = .ok st s₁)
    (hs : solve.run s₁ = .ok sum s₂) (hd : .declare d ∈ facts)
    (hforced : d.inMacro = true ∨ d.rewritable = false)
    (hfit : ∀ d', .declare d' ∈ facts → d'.FitsKey d.key d.ty)
    (hkind : d.ty.isFunction = true → d.kind = .function) :
    ∀ c ∈ (s₂.program.recordedAt d.key).toList, s₂.program.arena.AllWild s₂.program.store c := by
  -- the program the facts leave has its key shaped, and linking it ties the entries there
  have hp := (keepsRefs_addFacts facts (create o).program (refsOk_create o) (Nat.zero_le _)).1
  have hkey := keyShaped_addFacts (refsOk_create o) (keyShaped_create o d.key d.ty) hfit
  have h₁ := build_program hb
  have htied := tied_link hp hkey
  rw [← h₁] at htied
  have hw₁ : s₁.program.Wf := h₁ ▸ (keeps_link _ hp.wf).1
  have hg : GrowsOnly (stateOf ((addFacts facts).run (create o).program)) s₂.program :=
    (h₁ ▸ growsOnly_of_keeps keeps_link keepsTables_link hp.wf).trans (solve_growsOnly hw₁ hs)
  have hc := solve_closed hw₁ hs
  -- in the solved store the entries at the key are `wild` throughout together
  have hall := Arena.allWild_iff_of_isChain
    (htied.imp fun _ _ hab => hab s₂.program.store (solve_growsOnly hw₁ hs).entries hc)
  intro c hc'
  have hrec : s₂.program.recordedAt d.key = (stateOf ((addFacts facts).run (create o).program)).recordedAt d.key := by
    unfold recordedAt
    rw [hg.tables.entriesAt]
  rw [hrec] at hc'
  rw [hg.arena.allWild_iff (lt_size_of_recorded hp d.key c hc')]
  obtain ⟨r, hr⟩ := Option.isSome_iff_exists.1 (forcedReason_isSome_iff.2 hforced)
  rcases keyForced_addFacts (refsOk_create o) (keyShaped_create o d.key d.ty) hfit hd hr hkind with
    ⟨c₀, hc₀, hf⟩ | ⟨hlev, hfun⟩
  · -- one entry is forced, so `wild` throughout, and every other with it
    exact (hall c₀ hc₀ c hc').1 ((hf.mono hg.entries).allWild hc)
  · -- nothing to force: the entries reach no slot
    exact Arena.allWild_of_scalar hp.refs hlev hfun (hkey.shaped c hc')

/-- After a build from a fresh session and a solve, the declaration made up for the definitions of
a file, line and name is `wild` throughout when every function declared there, whatever the
column, is inside a macro expansion or in a file that may not be rewritten. -/
theorem synthesized_wild_of_forced (hb : (build facts).run (create o) = .ok st s₁)
    (hs : solve.run s₁ = .ok sum s₂) {k : DeclKey}
    (hsyn : ∀ d', .declare d' ∈ facts → d'.kind = .function → d'.ty.isFunction = true →
      d'.key.uniqueKey = k.uniqueKey → d'.inMacro = true ∨ d'.rewritable = false) :
    ∀ id, s₂.program.synthesizedOf k = some id → s₂.program.arena.AllWild s₂.program.store id := by
  -- the facts make nothing up and record each function forced as its declaration
  have hp := (keepsRefs_addFacts facts (create o).program (refsOk_create o) (Nat.zero_le _)).1
  have hcache := cacheForced_addFacts (wf_create o) (fun _ => rfl) facts
  have hdecl : (stateOf ((addFacts facts).run (create o).program)).FunctionsDeclared facts :=
    functionsDeclared_addFacts (refsOk_create o) fun _ _ h => nomatch h
  have h₁ := build_program hb
  have hw₁ : s₁.program.Wf := h₁ ▸ (keeps_link _ hp.wf).1
  have hc₁ : s₁.program.CacheForced := h₁ ▸ (keepsCache_link _ hp.wf hcache).2
  have hg : GrowsOnly (stateOf ((addFacts facts).run (create o).program)) s₂.program :=
    (h₁ ▸ growsOnly_of_keeps keeps_link keepsTables_link hp.wf).trans (solve_growsOnly hw₁ hs)
  -- every function recorded under the unique key is forced
  have hfns : ∀ k' f, s₂.program.functions.find? k' = some f → k'.uniqueKey = k.uniqueKey →
      f.forcedWild.isSome := by
    intro k' f hf hu
    rw [hg.tables.functions] at hf
    obtain ⟨k'', hk'', hcmp⟩ := SortedMap.mem_of_find? hf
    obtain ⟨d', hd', hkind', hfun', hkey', hforced'⟩ := hdecl k'' f hk''
    rw [hforced']
    refine forcedReason_isSome_iff.2 (hsyn d' hd' hkind' hfun' ?_)
    rw [hkey', ← Std.LawfulEqOrd.eq_of_compare hcmp]
    exact hu
  intro id hid
  exact (solve_cacheForced hw₁ hc₁ hs k.uniqueKey id hid hfns).allWild (solve_closed hw₁ hs)

/-- After a fresh build and a solve, a declaration in a macro expansion or an unwritable file is
`wild` throughout, both at its key and in the declaration made up for its file, line and name. -/
theorem forced_declarations_wild (hb : (build facts).run (create o) = .ok st s₁)
    (hs : solve.run s₁ = .ok sum s₂) (hd : .declare d ∈ facts)
    (hforced : d.inMacro = true ∨ d.rewritable = false)
    (hfit : ∀ d', .declare d' ∈ facts → d'.FitsKey d.key d.ty)
    (hkind : d.ty.isFunction = true → d.kind = .function)
    (hsyn : ∀ d', .declare d' ∈ facts → d'.kind = .function → d'.ty.isFunction = true →
      d'.key.uniqueKey = d.key.uniqueKey → d'.inMacro = true ∨ d'.rewritable = false) :
    (∀ c ∈ (s₂.program.recordedAt d.key).toList, s₂.program.arena.AllWild s₂.program.store c) ∧
      ∀ id, s₂.program.synthesizedOf d.key = some id → s₂.program.arena.AllWild s₂.program.store id :=
  ⟨recorded_wild_of_forced hb hs hd hforced hfit hkind, synthesized_wild_of_forced hb hs hsyn⟩

end Table

/-- A global definition with a pointer parameter inside a macro expansion: linking makes up its
declaration, and the two are `wild` throughout. -/
theorem forced_declarations_wild_of_macro_definition :
    let sig : FunctionShape := ⟨⟨"int", [], none⟩, [⟨"x", ⟨"int", [.pointer], none⟩, none, none⟩], true, false⟩
    let d : DeclFact := { key := ⟨"a.c", 1, 1, "f"⟩, kind := .function, ty := ⟨"", [], some sig⟩,
                          isGlobal := true, isDefinition := true, inMacro := true }
    let s₁ := stateOf ((build [.declare d]).run (create {}))
    let s₂ := stateOf (solve.run s₁)
    (∃ st, (build [.declare d]).run (create {}) = .ok st s₁) ∧ (∃ sum, solve.run s₁ = .ok sum s₂) ∧
      (d.inMacro = true ∨ d.rewritable = false) ∧
      (∀ d', .declare d' ∈ [Fact.declare d] → d'.FitsKey d.key d.ty) ∧
      (d.ty.isFunction = true → d.kind = .function) ∧
      (∀ d', .declare d' ∈ [Fact.declare d] → d'.kind = .function → d'.ty.isFunction = true →
        d'.key.uniqueKey = d.key.uniqueKey → d'.inMacro = true ∨ d'.rewritable = false) ∧
      (∀ c ∈ (s₂.program.recordedAt d.key).toList, s₂.program.arena.AllWild s₂.program.store c) ∧
      ∀ id, s₂.program.synthesizedOf d.key = some id → s₂.program.arena.AllWild s₂.program.store id := by
  intro sig d s₁ s₂
  have hr₁ : Reachable (fun _ => True) {} s₁ :=
    Relation.ReflTransGen.single (Step.build (create {}) [.declare d] fun _ _ _ => trivial)
  have hw₁ := hr₁.wf
  -- the build is read off by the kernel: it succeeds
  obtain ⟨st, hb⟩ : ∃ st, (build [.declare d]).run (create {}) = .ok st s₁ := by
    have hok : (match (build [.declare d]).run (create {}) with
      | .ok _ _ => true
      | .error _ _ => false) = true := by decide +kernel
    cases h : (build [.declare d]).run (create {}) with
    | ok st s =>
      have hs₁ : s₁ = s := by
        show stateOf ((build [.declare d]).run (create {})) = s
        rw [h, stateOf_ok]
      exact ⟨st, by rw [hs₁]⟩
    | error e s =>
      rw [h] at hok
      cases hok
  -- the solve is read off its run lemma: the elaborator does not unfold its rounds
  obtain ⟨sum, hs⟩ : ∃ sum, solve.run s₁ = .ok sum s₂ := by
    rcases solve_run hw₁ with ⟨hnb, -⟩ | ⟨-, r, p, hr, -⟩
    · exact absurd hnb (by decide +kernel)
    · refine ⟨r, ?_⟩
      show solve.run s₁ = .ok r (stateOf (solve.run s₁))
      rw [hr, stateOf_ok]
  have hd : Fact.declare d ∈ [Fact.declare d] := List.mem_singleton_self _
  -- the one declaration fits its key: its parameter is declared nowhere
  have hfit : ∀ d', .declare d' ∈ [Fact.declare d] → d'.FitsKey d.key d.ty := by
    intro d' hd'
    obtain rfl : d' = d := Fact.declare.inj (List.mem_singleton.1 hd')
    refine ⟨fun _ => rfl, fun _ _ f hf ps hps hkey => ?_⟩
    cases hf
    obtain rfl := List.mem_singleton.1 hps
    cases hkey
  have hsyn : ∀ d', .declare d' ∈ [Fact.declare d] → d'.kind = .function → d'.ty.isFunction = true →
      d'.key.uniqueKey = d.key.uniqueKey → d'.inMacro = true ∨ d'.rewritable = false := by
    intro d' hd' _ _ _
    obtain rfl : d' = d := Fact.declare.inj (List.mem_singleton.1 hd')
    exact .inl rfl
  exact ⟨⟨st, hb⟩, ⟨sum, hs⟩, .inl rfl, hfit, fun _ => rfl, hsyn,
    forced_declarations_wild hb hs hd (.inl rfl) hfit (fun _ => rfl) hsyn⟩

/-- A parameter of function type declared inside a macro expansion before its function is forced
nowhere: it has no level, so nothing is built for it, and the entry its function records later at
its key keeps a slot solved to `ptr`. -/
theorem early_function_parameter_escapes_forcing :
    let hkey : DeclKey := ⟨"a.c", 1, 8, "h"⟩
    let hty : TypeShape := ⟨"", [], some ⟨⟨"int", [], none⟩, [⟨"y", ⟨"int", [.pointer], none⟩, none, none⟩],
      true, false⟩⟩
    let facts : List Fact :=
      [.declare { key := hkey, kind := .parameter, ty := hty, inMacro := true },
       .declare { key := ⟨"a.c", 1, 1, "g"⟩, kind := .function, isDefinition := true,
                  ty := ⟨"", [], some ⟨⟨"int", [], none⟩, [⟨"h", hty, some hkey, none⟩], true, false⟩⟩ }]
    let p := (stateOf (solve.run (stateOf ((build facts).run (create {}))))).program
    ∃ c ∈ (p.recordedAt hkey).toList, ∃ v ∈ (p.arena.varsOf c).toList, p.store.assignment v = .ptr := by
  decide +kernel

end Session

end CheckedPointers
