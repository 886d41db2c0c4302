import CheckedPointers.Proofs.WildTies
/-!
# What the declarations record at one key

Keys are ordered field by field, file first, so the order is a lawful total order
(`DeclKey.compare_eq_lex`) and the table of recorded entries, built by updates from the empty
table, finds at each key exactly what was recorded there (`Program.recordedAt`); recording only
adds to it (`Program.RecordsGrow`).

Recording a declaration adds at most its own entry at its key, and a function's parameter
alternatives at their keys. So when every declaration of a key has one type, and so has every
parameter declared at it, every entry recorded at the key has that type's shape
(`Program.KeyShaped`), whatever else is recorded (`Program.keyShaped_addFacts`).

A declaration inside a macro expansion, or in a file that may not be rewritten, is forced to
`wild` along one of two paths: the entry it builds is forced, or, for a parameter of a function
already recorded, every entry at its key is. Either way some entry at its key is forced
(`Program.KeyForced`), and stays so (`Program.keyForced_addFacts`), unless its type has neither a
level nor a signature, and so nothing to force. A parameter of function type declared before its
function takes neither path: it has no level, so nothing is built for it, and the entry its
function records later is never forced.
-/

namespace CheckedPointers

/-- Keys compare field by field: file, line, column, then name. -/
theorem DeclKey.compare_eq_lex :
    (compare : DeclKey → DeclKey → Ordering) =
      compareLex (compareOn DeclKey.file) (compareLex (compareOn DeclKey.line)
        (compareLex (compareOn DeclKey.col) (compareOn DeclKey.name))) := by
  funext a b
  cases a
  cases b
  show (compare _ _).then ((compare _ _).then ((compare _ _).then ((compare _ _).then .eq))) = _
  have hthen : ∀ o : Ordering, o.then .eq = o := fun o => by cases o <;> rfl
  simp only [compareLex, compareOn, hthen]

instance : Std.TransOrd DeclKey := by
  show Std.TransCmp (compare : DeclKey → DeclKey → Ordering)
  rw [DeclKey.compare_eq_lex]
  infer_instance

instance : Std.LawfulEqOrd DeclKey where
  compare_self {a} := DeclKey.compare_self a
  eq_of_compare {a b} h := by
    rw [DeclKey.compare_eq_lex] at h
    simp only [compareLex, compareOn, Ordering.then_eq_eq, Std.compare_eq_iff_eq] at h
    obtain ⟨h1, h2, h3, h4⟩ := h
    cases a
    cases b
    simp_all

theorem foldl_keeps {α β : Type} {P : α → Prop} {g : α → β → α} :
    ∀ {l : List β}, (∀ x ∈ l, ∀ q, P q → P (g q x)) → ∀ q, P q → P (l.foldl g q)
  | [], _, _, hq => hq
  | x :: _, hg, q, hq => foldl_keeps (fun y hy => hg y (List.mem_cons_of_mem x hy)) _
    (hg x List.mem_cons_self q hq)

namespace Arena

variable {ar : Arena}

theorem ParamsShapedAs.mem_zip :
    ∀ {sets : List (SortedSet Nat)} {ps : List ParamShape}, ar.ParamsShapedAs sets ps →
      ∀ q ∈ ps.zip sets, ∃ c, q.2 = SortedSet.singleton c ∧ ar.ShapedAs c q.1.ty
  | [], [], _ => fun _ h => nomatch h
  | _ :: _, ⟨_, _, _, _⟩ :: _, ⟨⟨x, hx, hty⟩, hrest⟩ => fun q hq => by
    rcases List.mem_cons.1 hq with rfl | hq
    · exact ⟨x, hx, hty⟩
    · exact ParamsShapedAs.mem_zip hrest q hq
  | [], _ :: _, h => h.elim
  | _ :: _, [], h => h.elim

end Arena

/-- A declaration fits the key `k` of type `ty`: declared at `k`, it has type `ty`, and so has each
of its parameters declared at `k` when it is a function. -/
def DeclFact.FitsKey (d : DeclFact) (k : DeclKey) (ty : TypeShape) : Prop :=
  (d.key = k → d.ty = ty) ∧
    (d.kind = .function → d.ty.isFunction = true →
      ∀ f, d.ty.function = some f → ∀ ps ∈ f.params, ps.key = some k → ps.ty = ty)

namespace Program

variable {p : Program} {k : DeclKey} {ty : TypeShape} {c : Nat}

/-- The entries recorded at a key. -/
def recordedAt (p : Program) (k : DeclKey) : SortedSet Nat := (p.entriesAt.find? k).getD SortedSet.empty

theorem mem_recordedAt_recordAt (ha : p.entriesAt.Ascending) (key : DeclKey) (id : Nat) :
    c ∈ ((p.recordAt key id).recordedAt k).toList ↔ (key = k ∧ c = id) ∨ c ∈ (p.recordedAt k).toList := by
  unfold recordedAt recordAt
  by_cases hk : key = k
  · subst hk
    rw [ha.find?_alter_self, Option.getD_some, SortedSet.mem_insert_iff]
    simp
  · rw [SortedMap.find?_alter_of_ne (Ne.symm hk)]
    simp [hk]

theorem mem_recordedAt_recordParam (ha : p.entriesAt.Ascending) (d : DeclFact)
    (x : (ParamShape × SortedSet Nat) × Nat) :
    c ∈ ((recordParam d p x).recordedAt k).toList ↔
      (x.1.1.key = some k ∧ c ∈ x.1.2.toList) ∨ c ∈ (p.recordedAt k).toList := by
  unfold recordParam recordedAt
  split
  · next pk hpk =>
    dsimp only
    by_cases hk : pk = k
    · subst hk
      rw [ha.find?_alter_self, Option.getD_some]
      constructor
      · intro hc
        rcases SortedSet.mem_union hc with hc | hc
        · exact .inr hc
        · exact .inl ⟨hpk, hc⟩
      · rintro (⟨-, hc⟩ | hc)
        · exact SortedSet.mem_union_right hc
        · exact SortedSet.mem_union_left hc
    · rw [SortedMap.find?_alter_of_ne (Ne.symm hk)]
      simp [hpk, hk]
  · next hpk => simp [hpk]

theorem ascending_recordParam (ha : p.entriesAt.Ascending) (d : DeclFact)
    (x : (ParamShape × SortedSet Nat) × Nat) : (recordParam d p x).entriesAt.Ascending := by
  unfold recordParam
  split
  · exact ha.alter _ _
  · exact ha

theorem contains_recordParam (d : DeclFact) (x : (ParamShape × SortedSet Nat) × Nat) :
    (recordParam d p x).paramOwners.contains k = true ↔
      x.1.1.key = some k ∨ p.paramOwners.contains k = true := by
  unfold recordParam
  split
  · next pk hpk =>
    rw [SortedMap.contains_insertIfAbsent, hpk, Option.some.injEq]
    exact or_congr_left eq_comm
  · next hpk => simp [hpk]

/-! ## Recorded entries only accumulate -/

/-- `p'` records, in a table still in key order, every entry `p` records. -/
structure RecordsGrow (p p' : Program) : Prop where
  ascending : p'.entriesAt.Ascending
  mem : ∀ k c, c ∈ (p.recordedAt k).toList → c ∈ (p'.recordedAt k).toList

theorem RecordsGrow.refl (ha : p.entriesAt.Ascending) : RecordsGrow p p := ⟨ha, fun _ _ hc => hc⟩

theorem RecordsGrow.trans {p' p'' : Program} (h : RecordsGrow p p') (h' : RecordsGrow p' p'') :
    RecordsGrow p p'' :=
  ⟨h'.ascending, fun k c hc => h'.mem k c (h.mem k c hc)⟩

theorem RecordsGrow.of_entriesAt {p' : Program} (ha : p.entriesAt.Ascending) (he : p'.entriesAt = p.entriesAt) :
    RecordsGrow p p' :=
  ⟨he ▸ ha, fun k c hc => by unfold recordedAt; rw [he]; exact hc⟩

theorem recordsGrow_recordAt (ha : p.entriesAt.Ascending) (key : DeclKey) (id : Nat) :
    RecordsGrow p (p.recordAt key id) :=
  ⟨ha.alter _ _, fun _ _ hc => (mem_recordedAt_recordAt ha key id).2 (.inr hc)⟩

theorem recordsGrow_foldl_recordParam (d : DeclFact) :
    ∀ (l : List ((ParamShape × SortedSet Nat) × Nat)) (p : Program), p.entriesAt.Ascending →
      RecordsGrow p (l.foldl (recordParam d) p)
  | [], _, ha => .refl ha
  | x :: xs, p, ha =>
    have h₁ : RecordsGrow p (recordParam d p x) :=
      ⟨ascending_recordParam ha d x, fun _ _ hc => (mem_recordedAt_recordParam ha d x).2 (.inr hc)⟩
    h₁.trans (recordsGrow_foldl_recordParam d xs _ h₁.ascending)

theorem recordsGrow_recordParams (ha : p.entriesAt.Ascending) (d : DeclFact) (id : Nat) :
    RecordsGrow p (recordParams d id p) := by
  unfold Program.recordParams
  split
  · exact recordsGrow_foldl_recordParam d _ p ha
  · exact .refl ha

theorem store_recordParams (d : DeclFact) (id : Nat) (p : Program) :
    (recordParams d id p).store = p.store := by
  unfold Program.recordParams
  split
  · -- each parameter only updates the tables
    have h : ∀ (l : List ((ParamShape × SortedSet Nat) × Nat)) (q : Program),
        (l.foldl (recordParam d) q).store = q.store := by
      intro l
      induction l with
      | nil => exact fun _ => rfl
      | cons x xs ih =>
        intro q
        rw [List.foldl_cons, ih]
        unfold recordParam
        split <;> rfl
    exact h _ p
  · rfl

theorem recordsGrow_addFunction (ha : p.entriesAt.Ascending) (d : DeclFact) (ann : Annotations)
    (forced : Option String) : RecordsGrow p (p.addFunction d ann forced) := by
  rw [addFunction_eq]
  dsimp only
  set b := p.buildEntry d.name d.ty ann
  have h₁ : RecordsGrow p (forceWildOpt forced b.1 (some d.key.loc) b.2) :=
    .of_entriesAt ha (by cases forced <;> rfl)
  have h₂ := h₁.trans (recordsGrow_recordAt h₁.ascending d.key b.1)
  have h₃ : RecordsGrow p (noteBody d ((forceWildOpt forced b.1 (some d.key.loc) b.2).recordAt d.key b.1)) :=
    ⟨h₂.ascending, h₂.mem⟩
  have h₄ := h₃.trans (recordsGrow_recordParams h₃.ascending d b.1)
  exact ⟨h₄.ascending, h₄.mem⟩

theorem recordsGrow_addDeclaration (ha : p.entriesAt.Ascending) (d : DeclFact) :
    RecordsGrow p (p.addDeclaration d) := by
  unfold Program.addDeclaration
  generalize hp0 : ({ p with files := p.files.alter d.key.file fun r => r.getD true && d.rewritable } :
    Program) = p0
  have h0 : RecordsGrow p p0 := .of_entriesAt ha (hp0 ▸ rfl)
  dsimp only
  split
  · exact h0.trans (recordsGrow_addFunction h0.ascending d _ _)
  split
  · split
    · exact ⟨h0.ascending, h0.mem⟩
    · exact h0
  split
  · exact h0
  set b := p0.buildEntry d.name d.ty
    { itype := d.itype, boundsInterop := d.boundsInterop, hasBody := d.isDefinition }
  have h₁ : RecordsGrow p0 (forceWildOpt (DeclFact.forcedReason d) b.1 (some d.key.loc) b.2) :=
    .of_entriesAt h0.ascending (by cases DeclFact.forcedReason d <;> rfl)
  have h₂ := h0.trans (h₁.trans (recordsGrow_recordAt h₁.ascending d.key b.1))
  split
  · exact ⟨h₂.ascending, h₂.mem⟩
  · exact h₂

/-! ## Entries of one shape at a key -/

/-- Every entry recorded at `k` has the shape of `ty`, and a key owned as a parameter has an
entry. -/
structure KeyShaped (p : Program) (k : DeclKey) (ty : TypeShape) : Prop where
  ascending : p.entriesAt.Ascending
  shaped : ∀ c ∈ (p.recordedAt k).toList, p.arena.ShapedAs c ty
  owned : p.paramOwners.contains k = true → ∃ c, c ∈ (p.recordedAt k).toList

theorem KeyShaped.growsOnly {p' : Program} (h : p.KeyShaped k ty) (hg : GrowsOnly p p') : p'.KeyShaped k ty := by
  have hrec : p'.recordedAt k = p.recordedAt k := by
    unfold recordedAt
    rw [hg.tables.entriesAt]
  refine ⟨hg.tables.entriesAt ▸ h.ascending, fun c hc => ?_, fun ho => ?_⟩
  · rw [hrec] at hc
    exact Arena.ShapedAs.mono hg.arena c ty (h.shaped c hc)
  · rw [hrec]
    exact h.owned (hg.tables.paramOwners ▸ ho)

theorem KeyShaped.foldl_recordParam (d : DeclFact) :
    ∀ (l : List ((ParamShape × SortedSet Nat) × Nat)) (p : Program), p.KeyShaped k ty →
      (∀ x ∈ l, x.1.1.key = some k → (∃ c, c ∈ x.1.2.toList) ∧ ∀ c ∈ x.1.2.toList, p.arena.ShapedAs c ty) →
      (l.foldl (recordParam d) p).KeyShaped k ty
  | [], _, h, _ => h
  | x :: xs, p, h, hx => by
    have harena : (recordParam d p x).arena = p.arena := by
      unfold recordParam
      split <;> rfl
    have hmem : ∀ c, c ∈ ((recordParam d p x).recordedAt k).toList ↔
        (x.1.1.key = some k ∧ c ∈ x.1.2.toList) ∨ c ∈ (p.recordedAt k).toList :=
      fun _ => mem_recordedAt_recordParam h.ascending d x
    have h₁ : (recordParam d p x).KeyShaped k ty := by
      refine ⟨ascending_recordParam h.ascending d x, fun c hc => ?_, fun ho => ?_⟩
      · rw [harena]
        rcases (hmem c).1 hc with ⟨hkey, hc⟩ | hc
        · exact (hx x List.mem_cons_self hkey).2 c hc
        · exact h.shaped c hc
      · rcases (contains_recordParam d x).1 ho with hkey | ho
        · obtain ⟨c, hc⟩ := (hx x List.mem_cons_self hkey).1
          exact ⟨c, (hmem c).2 (.inl ⟨hkey, hc⟩)⟩
        · obtain ⟨c, hc⟩ := h.owned ho
          exact ⟨c, (hmem c).2 (.inr hc)⟩
    exact KeyShaped.foldl_recordParam d xs _ h₁ fun y hy hkey => by
      rw [harena]
      exact hx y (List.mem_cons_of_mem x hy) hkey

theorem KeyShaped.recordParams (h : p.KeyShaped k ty) (d : DeclFact) {id : Nat} {f : FunctionShape}
    (hsig : d.ty.function = some f) (hid : p.arena.FunctionShapedAs id f)
    (hfit : ∀ ps ∈ f.params, ps.key = some k → ps.ty = ty) :
    (recordParams d id p).KeyShaped k ty := by
  obtain ⟨ret, params, _, _⟩ := f
  obtain ⟨fe, hfe, -, hps⟩ := hid
  unfold Program.recordParams
  rw [hsig, hfe]
  refine KeyShaped.foldl_recordParam d _ p h fun x hx hkey => ?_
  -- each parameter holds one alternative of its type
  have hzip := List.fst_mem_of_mem_zipIdx hx
  obtain ⟨c, hc, hty⟩ := Arena.ParamsShapedAs.mem_zip hps x.1 hzip
  rw [hc, SortedSet.toList_singleton]
  refine ⟨⟨c, List.mem_singleton_self c⟩, fun c' hc' => ?_⟩
  rw [List.mem_singleton.1 hc', ← hfit x.1.1 (List.of_mem_zip hzip).1 hkey]
  exact hty

theorem KeyShaped.recordBuilt (h : p.KeyShaped k ty) (hw : p.Wf) (d : DeclFact) (ann : Annotations)
    (forced : Option String) (hfit : d.key = k → d.ty = ty) :
    let b := p.buildEntry d.name d.ty ann
    ((forceWildOpt forced b.1 (some d.key.loc) b.2).recordAt d.key b.1).KeyShaped k ty := by
  intro b
  obtain ⟨-, he₁, -⟩ := hw.buildEntry d.name d.ty ann
  have hbuilt : b.2.arena.ShapedAs b.1 d.ty := Arena.shapedAs_build p.arena p.store d.name d.ty ann
  -- forcing changes only the store
  set q := forceWildOpt forced b.1 (some d.key.loc) b.2
  have hq : q.arena = b.2.arena ∧ q.entriesAt = p.entriesAt ∧ q.paramOwners = p.paramOwners := by
    cases forced <;> exact ⟨rfl, rfl, rfl⟩
  have hrec : q.recordedAt k = p.recordedAt k := by
    unfold recordedAt
    rw [hq.2.1]
  have hmem : ∀ c, c ∈ ((q.recordAt d.key b.1).recordedAt k).toList ↔ (d.key = k ∧ c = b.1) ∨
      c ∈ (p.recordedAt k).toList := fun _ => by
    rw [mem_recordedAt_recordAt (hq.2.1 ▸ h.ascending), hrec]
  refine ⟨?_, fun c hc => ?_, fun ho => ?_⟩
  · show (SortedMap.alter _ _ _).Ascending
    rw [hq.2.1]
    exact h.ascending.alter _ _
  · show q.arena.ShapedAs c ty
    rw [hq.1]
    rcases (hmem c).1 hc with ⟨hk, rfl⟩ | hc
    · rw [← hfit hk]
      exact hbuilt
    · exact Arena.ShapedAs.mono he₁.arena c ty (h.shaped c hc)
  · obtain ⟨c, hc⟩ := h.owned (hq.2.2 ▸ ho)
    exact ⟨c, (hmem c).2 (.inr hc)⟩

theorem KeyShaped.addFunction (h : p.KeyShaped k ty) (hw : p.Wf) {d : DeclFact} (ann : Annotations)
    {forced : Option String} (hkind : d.kind = .function) (hfun : d.ty.isFunction = true)
    (hfit : d.FitsKey k ty) : (p.addFunction d ann forced).KeyShaped k ty := by
  rw [addFunction_eq]
  dsimp only
  have h₃ := h.recordBuilt hw d ann forced hfit.1
  set b := p.buildEntry d.name d.ty ann
  have hbuilt : b.2.arena.ShapedAs b.1 d.ty := Arena.shapedAs_build p.arena p.store d.name d.ty ann
  -- then its parameters, shaped by the signature
  obtain ⟨hlev, hsome⟩ := Bool.and_eq_true_iff.1 hfun
  obtain ⟨f, hsig⟩ := Option.isSome_iff_exists.1 hsome
  have hfs : ((forceWildOpt forced b.1 (some d.key.loc) b.2).recordAt d.key b.1).arena.FunctionShapedAs b.1 f := by
    have hty : d.ty = ⟨d.ty.base, [], some f⟩ := by
      cases hd : d.ty
      rw [hd] at hsig hlev
      simp_all
    rw [hty, Arena.ShapedAs] at hbuilt
    show (forceWildOpt forced b.1 (some d.key.loc) b.2).arena.FunctionShapedAs b.1 f
    rw [arena_forceWildOpt]
    exact hbuilt
  have h₄ : (noteBody d ((forceWildOpt forced b.1 (some d.key.loc) b.2).recordAt d.key b.1)).KeyShaped k ty :=
    ⟨h₃.ascending, h₃.shaped, h₃.owned⟩
  have h₅ := h₄.recordParams d hsig hfs (hfit.2 hkind hfun f hsig)
  exact ⟨h₅.ascending, h₅.shaped, h₅.owned⟩

theorem KeyShaped.addDeclaration (h : p.KeyShaped k ty) (hw : p.Wf) {d : DeclFact} (hfit : d.FitsKey k ty) :
    (p.addDeclaration d).KeyShaped k ty := by
  unfold Program.addDeclaration
  generalize hp0 : ({ p with files := p.files.alter d.key.file fun r => r.getD true && d.rewritable } :
    Program) = p0
  have h0 : p0.KeyShaped k ty := hp0 ▸ ⟨h.ascending, h.shaped, h.owned⟩
  have hw0 : p0.Wf := hp0 ▸ ⟨hw.store, hw.slots, hw.recorded, hw.synthesized, hw.functions⟩
  dsimp only
  split
  · next hfun =>
    simp only [Bool.and_eq_true, beq_iff_eq] at hfun
    exact h0.addFunction hw0 _ hfun.1 hfun.2 hfit
  split
  · -- a parameter of a recorded function: only constraints are added
    split
    · exact ⟨h0.ascending, h0.shaped, h0.owned⟩
    · exact h0
  split
  · exact h0
  -- any other declaration with a level builds one pointer entry at its key
  have hq := h0.recordBuilt hw0 d
    { itype := d.itype, boundsInterop := d.boundsInterop, hasBody := d.isDefinition } (DeclFact.forcedReason d)
    hfit.1
  split
  · exact ⟨hq.ascending, hq.shaped, hq.owned⟩
  · exact hq

/-! ## A forced entry at a key -/

/-- Some entry recorded at `k` is forced to `wild` throughout. -/
def KeyForced (p : Program) (k : DeclKey) : Prop :=
  ∃ c ∈ (p.recordedAt k).toList, p.arena.WildForced p.store c

theorem KeyForced.grow {p' : Program} (h : p.KeyForced k) (hp : p.RefsOk)
    (hent : p.store.entries <+: p'.store.entries) (ha : p.arena.Extends p'.arena) (hr : RecordsGrow p p') :
    p'.KeyForced k := by
  obtain ⟨c, hc, hf⟩ := h
  exact ⟨c, hr.mem k c hc, (hf.mono hent).extend ha (lt_size_of_recorded hp k c hc)⟩

theorem keyForced_recordBuilt (ha : p.entriesAt.Ascending) (d : DeclFact) (ann : Annotations) (r : String) :
    let b := p.buildEntry d.name d.ty ann
    ((b.2.forceWild b.1 r (some d.key.loc)).recordAt d.key b.1).KeyForced d.key :=
  ⟨_, (mem_recordedAt_recordAt ha d.key _).2 (.inl ⟨rfl, rfl⟩), Arena.wildForced_constrainToWild _ _ _ _ _⟩

theorem keyForced_addFunction (ha : p.entriesAt.Ascending) (d : DeclFact) (ann : Annotations) (r : String) :
    (p.addFunction d ann (some r)).KeyForced d.key := by
  rw [addFunction_eq]
  dsimp only
  obtain ⟨c, hc, hf⟩ := keyForced_recordBuilt ha d ann r
  set q := ((p.buildEntry d.name d.ty ann).2.forceWild (p.buildEntry d.name d.ty ann).1 r
    (some d.key.loc)).recordAt d.key (p.buildEntry d.name d.ty ann).1
  -- recording the parameters and the function changes neither the arena nor the store
  have hg : RecordsGrow (noteBody d q) (recordParams d (p.buildEntry d.name d.ty ann).1 (noteBody d q)) :=
    recordsGrow_recordParams (ha.alter _ _) d _
  refine ⟨c, hg.mem _ c hc, ?_⟩
  show (recordParams d _ (noteBody d q)).arena.WildForced (recordParams d _ (noteBody d q)).store c
  rw [arena_recordParams, store_recordParams]
  exact hf

theorem keyForced_addDeclaration (h : p.KeyShaped d.key d.ty) {r : String} (hr : DeclFact.forcedReason d = some r)
    (hkind : d.ty.isFunction = true → d.kind = .function) :
    (p.addDeclaration d).KeyForced d.key ∨ (d.ty.levels = [] ∧ d.ty.function = none) := by
  unfold Program.addDeclaration
  generalize hp0 : ({ p with files := p.files.alter d.key.file fun r => r.getD true && d.rewritable } :
    Program) = p0
  have h0 : p0.KeyShaped d.key d.ty := hp0 ▸ ⟨h.ascending, h.shaped, h.owned⟩
  dsimp only
  rw [hr]
  split
  · exact .inl (keyForced_addFunction h0.ascending d _ r)
  split
  · next hpar =>
    -- a parameter of a recorded function: every entry at its key is forced
    simp only [Bool.and_eq_true, beq_iff_eq] at hpar
    obtain ⟨c, hc⟩ := h0.owned hpar.2
    exact .inl ⟨c, hc, Arena.wildForced_constrainSetToWild _ _ _ _ _ c hc⟩
  split
  · next hfun _ hptr =>
    -- no level, and no signature: a signature would make it a function
    right
    have hlev : d.ty.levels = [] := by
      simpa [TypeShape.isPointerLike] using hptr
    refine ⟨hlev, Option.eq_none_iff_forall_ne_some.2 fun f hf => hfun ?_⟩
    have hisf : d.ty.isFunction = true := by simp [TypeShape.isFunction, hlev, hf]
    simp [hkind hisf, hisf]
  -- any other declaration with a level builds one forced entry at its key
  left
  have hq := keyForced_recordBuilt h0.ascending d
    { itype := d.itype, boundsInterop := d.boundsInterop, hasBody := d.isDefinition } r
  split
  · exact hq
  · exact hq

/-! ## Recording the facts -/

/-- Records a declaration fact; the other facts wait until every declaration is in. -/
def declareOnly (p : Program) : Fact → Program
  | .declare d => p.addDeclaration d
  | _ => p

theorem refsOk_declareOnly (hp : p.RefsOk) (f : Fact) : (declareOnly p f).RefsOk := by
  cases f with
  | declare d => exact hp.addDeclaration d
  | _ => exact hp

theorem refsOk_foldl_declareOnly (hp : p.RefsOk) (facts : List Fact) : (facts.foldl declareOnly p).RefsOk :=
  foldl_keeps (P := RefsOk) (fun f _ _ hq => refsOk_declareOnly hq f) p hp

theorem growsOnly_addFacts (hp : p.RefsOk) (facts : List Fact) :
    GrowsOnly (facts.foldl declareOnly p) (stateOf ((addFacts facts).run p)) := by
  have hw := refsOk_foldl_declareOnly hp facts
  unfold Program.addFacts
  rw [run_bind, run_modify]
  exact growsOnly_of_keeps
    ((keeps_forIn fun f _ => (keeps_addFact f).bind fun _ => keeps_pure _).bind fun _ => keeps_pure _)
    ((keepsTables_forIn fun f _ => (keepsTables_addFact f).bind fun _ => keepsTables_pure _).bind
      fun _ => keepsTables_pure _) hw.wf

variable {facts : List Fact}

theorem KeyShaped.foldl_declareOnly (hfit : ∀ d, .declare d ∈ facts → d.FitsKey k ty) :
    ∀ q : Program, q.KeyShaped k ty ∧ q.RefsOk →
      (facts.foldl declareOnly q).KeyShaped k ty ∧ (facts.foldl declareOnly q).RefsOk := by
  refine foldl_keeps fun f hf q hq => ⟨?_, refsOk_declareOnly hq.2 f⟩
  cases f with
  | declare d => exact hq.1.addDeclaration hq.2.wf (hfit d hf)
  | _ => exact hq.1

theorem KeyForced.foldl_declareOnly (facts : List Fact) :
    ∀ q : Program, q.KeyForced k ∧ q.entriesAt.Ascending ∧ q.RefsOk →
      (facts.foldl declareOnly q).KeyForced k := by
  -- a forced entry is kept in a growing program, so the fold keeps it with the invariants
  suffices h : ∀ q : Program, q.KeyForced k ∧ q.entriesAt.Ascending ∧ q.RefsOk →
      (facts.foldl declareOnly q).KeyForced k ∧ (facts.foldl declareOnly q).entriesAt.Ascending ∧
        (facts.foldl declareOnly q).RefsOk from fun q hq => (h q hq).1
  refine foldl_keeps fun f _ q ⟨hf, ha, hp⟩ => ?_
  cases f with
  | declare d =>
    have hg := recordsGrow_addDeclaration ha d
    have he := (preserves_addDeclaration d q hp.wf).2
    exact ⟨hf.grow hp he.store.extends.entries he.arena hg, hg.ascending, hp.addDeclaration d⟩
  | _ => exact ⟨hf, ha, hp⟩

/-- After the facts are recorded, a key every declaration fits is shaped. -/
theorem keyShaped_addFacts (hp : p.RefsOk) (h : p.KeyShaped k ty)
    (hfit : ∀ d, .declare d ∈ facts → d.FitsKey k ty) : (stateOf ((addFacts facts).run p)).KeyShaped k ty :=
  (KeyShaped.foldl_declareOnly hfit p ⟨h, hp⟩).1.growsOnly (growsOnly_addFacts hp facts)

/-- After the facts are recorded, a key at which every declaration fits and one is forced has a
forced entry, unless its type has neither a level nor a signature. -/
theorem keyForced_addFacts (hp : p.RefsOk) (h : p.KeyShaped d.key d.ty)
    (hfit : ∀ d', .declare d' ∈ facts → d'.FitsKey d.key d.ty) (hd : .declare d ∈ facts) {r : String}
    (hr : DeclFact.forcedReason d = some r) (hkind : d.ty.isFunction = true → d.kind = .function) :
    (stateOf ((addFacts facts).run p)).KeyForced d.key ∨ (d.ty.levels = [] ∧ d.ty.function = none) := by
  have hg := growsOnly_addFacts hp facts
  obtain ⟨l₁, l₂, rfl⟩ := List.append_of_mem hd
  rw [List.foldl_append, List.foldl_cons] at hg
  -- the declarations before `d` keep its key shaped, `d` forces it, and the rest keep that
  obtain ⟨h₁, hp₁⟩ := KeyShaped.foldl_declareOnly (fun d' hd' => hfit d' (List.mem_append_left _ hd')) p ⟨h, hp⟩
  set q₁ := l₁.foldl declareOnly p
  have hs₂ := h₁.addDeclaration hp₁.wf (hfit d (List.mem_append_right _ List.mem_cons_self))
  have hp₂ := hp₁.addDeclaration d
  rcases keyForced_addDeclaration h₁ hr hkind with hf₂ | hscalar
  · left
    have hf₃ := KeyForced.foldl_declareOnly l₂ (q₁.addDeclaration d) ⟨hf₂, hs₂.ascending, hp₂⟩
    have hp₃ := refsOk_foldl_declareOnly hp₂ l₂
    have ha₃ := (KeyShaped.foldl_declareOnly (fun d' (hd' : .declare d' ∈ l₂) => hfit d'
      (List.mem_append_right _ (List.mem_cons_of_mem _ hd'))) _ ⟨hs₂, hp₂⟩).1.ascending
    exact hf₃.grow hp₃ hg.entries hg.arena (.of_entriesAt ha₃ hg.tables.entriesAt)
  · exact .inr hscalar

end Program

end CheckedPointers
