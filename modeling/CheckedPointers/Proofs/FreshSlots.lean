import CheckedPointers.Proofs.WildTies

/-!
# Building an entry takes fresh slots

Building the entry of a type shape creates one fresh slot per level of the type and then those of
its signature's return and parameters, recursively: `TypeShape.slotCount` slots in all, whose
levels in order of creation are `TypeShape.allLevels`. The slots start at `ptr`, the slot of each
array level gets a bound `v ≥ arr` with the array reason under the next id, and the store gains
nothing else but chains (`ConstraintStore.FreshSlots`). The entry built reaches exactly the fresh
slots; a pointer entry holds the slots of its own levels in order, and a bare function one return
alternative and one alternative per parameter (`Arena.build_allocates_fresh_slots`).

A bound the store holds already is not added again. A store can hold one over a fresh slot only if
a constraint named the slot before it was registered, which no store of a session does
(`Arena.build_skips_bound_already_held` is such a store).
-/

namespace CheckedPointers

/-! ## The slots a type shape asks for -/

mutual

/-- The number of slots building an entry of the shape creates: one per level, and those of its
signature's return and parameters. -/
def TypeShape.slotCount : TypeShape → Nat
  | ⟨_, levels, none⟩ => levels.length
  | ⟨_, levels, some f⟩ => levels.length + f.slotCount

def FunctionShape.slotCount : FunctionShape → Nat
  | ⟨ret, params, _, _⟩ => ret.slotCount + ParamShape.slotCountList params

def ParamShape.slotCountList : List ParamShape → Nat
  | [] => 0
  | ⟨_, ty, _, _⟩ :: ps => ty.slotCount + ParamShape.slotCountList ps

end

mutual

/-- The levels of the slots building an entry of the shape creates, in order of creation: its own
levels, then those of its signature's return and parameters. -/
def TypeShape.allLevels : TypeShape → List Level
  | ⟨_, levels, none⟩ => levels
  | ⟨_, levels, some f⟩ => levels ++ f.allLevels

def FunctionShape.allLevels : FunctionShape → List Level
  | ⟨ret, params, _, _⟩ => ret.allLevels ++ ParamShape.allLevelsList params

def ParamShape.allLevelsList : List ParamShape → List Level
  | [] => []
  | ⟨_, ty, _, _⟩ :: ps => ty.allLevels ++ ParamShape.allLevelsList ps

end

mutual

theorem TypeShape.length_allLevels : ∀ t : TypeShape, t.allLevels.length = t.slotCount
  | ⟨_, _, none⟩ => rfl
  | ⟨_, levels, some f⟩ => by
    rw [TypeShape.allLevels, TypeShape.slotCount, List.length_append, FunctionShape.length_allLevels f]

theorem FunctionShape.length_allLevels : ∀ f : FunctionShape, f.allLevels.length = f.slotCount
  | ⟨ret, params, _, _⟩ => by
    rw [FunctionShape.allLevels, FunctionShape.slotCount, List.length_append,
      TypeShape.length_allLevels ret, ParamShape.length_allLevelsList params]

theorem ParamShape.length_allLevelsList :
    ∀ ps : List ParamShape, (ParamShape.allLevelsList ps).length = ParamShape.slotCountList ps
  | [] => rfl
  | ⟨_, ty, _, _⟩ :: ps => by
    rw [ParamShape.allLevelsList, ParamShape.slotCountList, List.length_append,
      TypeShape.length_allLevels ty, ParamShape.length_allLevelsList ps]

end

theorem TypeShape.allLevels_eq (base : String) (levels : List Level) (function : Option FunctionShape) :
    TypeShape.allLevels ⟨base, levels, function⟩ = levels ++ (function.map FunctionShape.allLevels).getD [] := by
  cases function <;> simp [TypeShape.allLevels]

namespace ConstraintStore

/-! ## Fresh slots in the store -/

/-- The bounds `v ≥ arr` on the slots of the array levels among `levels`, numbered from `n`. -/
def arrayBounds : Nat → List Level → List Relation
  | _, [] => []
  | n, .array :: ls => .geq n .arr :: arrayBounds (n + 1) ls
  | n, .pointer :: ls => arrayBounds (n + 1) ls

theorem arrayBounds_append (n : Nat) (l₁ l₂ : List Level) :
    arrayBounds n (l₁ ++ l₂) = arrayBounds n l₁ ++ arrayBounds (n + l₁.length) l₂ := by
  induction l₁ generalizing n with
  | nil => rfl
  | cons l ls ih =>
    have hn : n + 1 + ls.length = n + (ls.length + 1) := by omega
    cases l <;> simp [arrayBounds, ih, hn]

theorem vars_of_mem_arrayBounds {n : Nat} {l : List Level} {r : Relation} (hr : r ∈ arrayBounds n l) :
    ∀ v ∈ r.vars, n ≤ v ∧ v < n + l.length := by
  induction l generalizing n with
  | nil => exact absurd hr List.not_mem_nil
  | cons x ls ih =>
    intro v hv
    cases x with
    | pointer =>
      have := ih hr v hv
      simp only [List.length_cons]
      omega
    | array =>
      rcases List.mem_cons.1 hr with rfl | hr
      · simp only [Relation.vars, List.mem_singleton] at hv
        simp only [List.length_cons]
        omega
      · have := ih hr v hv
        simp only [List.length_cons]
        omega

/-- Every constraint names only registered slots. -/
def ConstraintsRegistered (cs : ConstraintStore) : Prop :=
  ∀ e ∈ cs.entries, ∀ v ∈ e.2.relation.vars, v < cs.numVars

/-- The store `cs'` is `cs` with one fresh slot at `ptr` for each of `levels`, in order, a bound
`v ≥ arr` with the array reason on the slot of each array level under the next ids, and some
chains. -/
structure FreshSlots (cs : ConstraintStore) (levels : List Level) (cs' : ConstraintStore) : Prop where
  env : cs'.env = cs.env ++ Array.replicate levels.length .ptr
  entries : ∃ L : List (Nat × Constraint), cs'.entries = cs.entries ++ L ∧
    L.map Prod.fst = List.range' cs.nextId L.length ∧
    L.map Prod.snd = (arrayBounds cs.numVars levels).map fun r => ⟨r, Reason.arrayDecl, none⟩
  nextId : cs'.nextId = cs.nextId + (arrayBounds cs.numVars levels).length
  chains : cs.chains <+: cs'.chains

variable {cs cs' cs₁ cs₂ : ConstraintStore} {l l₁ l₂ : List Level}

theorem FreshSlots.numVars (h : cs.FreshSlots l cs') : cs'.numVars = cs.numVars + l.length := by
  simp [ConstraintStore.numVars, h.env]

theorem freshSlots_refl (cs : ConstraintStore) : cs.FreshSlots [] cs :=
  ⟨by simp, ⟨[], by simp, rfl, rfl⟩, rfl, List.prefix_refl _⟩

theorem FreshSlots.trans (h₁ : cs.FreshSlots l₁ cs₁) (h₂ : cs₁.FreshSlots l₂ cs₂) :
    cs.FreshSlots (l₁ ++ l₂) cs₂ := by
  obtain ⟨L₁, he₁, hid₁, hc₁⟩ := h₁.entries
  obtain ⟨L₂, he₂, hid₂, hc₂⟩ := h₂.entries
  have hlen₁ : L₁.length = (arrayBounds cs.numVars l₁).length := by
    rw [← List.length_map (f := Prod.snd), hc₁, List.length_map]
  -- the second run numbers its slots and its constraints where the first stopped
  have hn := h₁.numVars
  have hid := h₁.nextId
  refine ⟨?_, ⟨L₁ ++ L₂, by rw [he₂, he₁, List.append_assoc], ?_, ?_⟩, ?_, h₁.chains.trans h₂.chains⟩
  · rw [h₂.env, h₁.env, Array.append_assoc, Array.replicate_append_replicate, List.length_append]
  · rw [List.map_append, hid₁, hid₂, hid, ← hlen₁, List.length_append, List.range'_append_1]
  · rw [List.map_append, hc₁, hc₂, hn, arrayBounds_append, List.map_append]
  · rw [h₂.nextId, hid, hn, arrayBounds_append, List.length_append, Nat.add_assoc]

theorem freshSlots_registerChain (cs : ConstraintStore) (ch : List Nat) :
    cs.FreshSlots [] (cs.registerChain ch) := by
  refine ⟨by simp, ⟨[], by simp, rfl, rfl⟩, by simp [arrayBounds], ?_⟩
  rw [registerChain_chains]
  split
  · exact List.prefix_append _ _
  · exact List.prefix_refl _

theorem FreshSlots.registered (h : cs.FreshSlots l cs') (hreg : cs.ConstraintsRegistered) :
    cs'.ConstraintsRegistered := by
  obtain ⟨L, he, -, hc⟩ := h.entries
  intro e he' v hv
  rw [h.numVars]
  rw [he] at he'
  rcases List.mem_append.1 he' with he' | he'
  · exact Nat.lt_of_lt_of_le (hreg e he' v hv) (Nat.le_add_right _ _)
  · -- an added constraint bounds one of the fresh slots
    have hmem : e.2 ∈ L.map Prod.snd := List.mem_map_of_mem he'
    rw [hc] at hmem
    obtain ⟨r, hr, hre⟩ := List.mem_map.1 hmem
    rw [← hre] at hv
    exact (vars_of_mem_arrayBounds hr v hv).2

theorem freshSlots_levelStep (acc : List Nat × ConstraintStore) (l : Level)
    (hreg : acc.2.ConstraintsRegistered) : acc.2.FreshSlots [l] (Arena.levelStep acc l).2 := by
  cases l with
  | pointer => exact ⟨by simp [Arena.levelStep], ⟨[], by simp [Arena.levelStep], rfl, rfl⟩,
      by simp [Arena.levelStep, arrayBounds], by simp [Arena.levelStep]⟩
  | array =>
    -- the slot is fresh, so no constraint of the store names it yet
    have hnew : ∀ e ∈ acc.2.fresh.2.entries, e.2.relation ≠ .geq acc.2.numVars .arr := by
      intro e he hrel
      have hlt := hreg e he acc.2.numVars (by rw [hrel]; simp [Relation.vars])
      exact Nat.lt_irrefl _ hlt
    have hstep : (Arena.levelStep acc .array).2 =
        acc.2.fresh.2.push ⟨.geq acc.2.numVars .arr, Reason.arrayDecl, none⟩ (index_find?_of_new hnew) := by
      show (acc.2.fresh.2.addGeq acc.2.numVars .arr Reason.arrayDecl none).2 = _
      rw [addGeq_snd, add_of_new (fun _ _ h => by cases h) hnew]
    rw [hstep]
    exact ⟨by simp, ⟨_, rfl, rfl, by simp [arrayBounds]⟩, by simp [arrayBounds], by simp⟩

theorem freshSlots_foldl_levelStep (levels : List Level) (acc : List Nat × ConstraintStore)
    (hreg : acc.2.ConstraintsRegistered) : acc.2.FreshSlots levels (levels.foldl Arena.levelStep acc).2 := by
  induction levels generalizing acc with
  | nil => exact freshSlots_refl _
  | cons l ls ih =>
    have h₁ := freshSlots_levelStep acc l hreg
    exact h₁.trans (ih _ (h₁.registered hreg))

end ConstraintStore

namespace Arena

open ConstraintStore

variable {a a' a'' : Arena} {cs cs' cs₁ cs₂ : ConstraintStore} {id : Nat}

theorem Appends.children_eq (h : a.Appends a') (hid : id < a.size) : a'.children id = a.children id := by
  simp only [children, h.get?_eq hid]

/-! ## Building over fresh slots -/

/-- What building entries from `a` and `cs` did, ending at `a'` and `cs'` with the entries `ids`
and creating the slots of `levels`: the arena had entries appended, each entry built embeds only
entries before it, the store took the fresh slots, and the entries built reach exactly them. -/
structure BuildsFresh (a : Arena) (cs : ConstraintStore) (levels : List Level) (ids : List Nat)
    (a' : Arena) (cs' : ConstraintStore) : Prop where
  arena : a.Appends a'
  store : cs.FreshSlots levels cs'
  lt_size : ∀ id ∈ ids, id < a'.size
  back : ∀ id ∈ ids, ∀ c ∈ a'.children id, c < id
  reach : ∀ v, (∃ id ∈ ids, v ∈ (a'.varsOf id).toList) ↔ cs.numVars ≤ v ∧ v < cs.numVars + levels.length

theorem buildsFresh_refl (a : Arena) (cs : ConstraintStore) : BuildsFresh a cs [] [] a cs :=
  ⟨Appends.refl a, freshSlots_refl cs, fun _ h => (nomatch h), fun _ h => (nomatch h),
    fun v => by simp⟩

theorem BuildsFresh.trans {l₁ l₂ : List Level} {ids₁ ids₂ : List Nat}
    (h₁ : BuildsFresh a cs l₁ ids₁ a' cs₁) (h₂ : BuildsFresh a' cs₁ l₂ ids₂ a'' cs₂) :
    BuildsFresh a cs (l₁ ++ l₂) (ids₁ ++ ids₂) a'' cs₂ := by
  have hn := h₁.store.numVars
  refine ⟨h₁.arena.trans h₂.arena, h₁.store.trans h₂.store, fun id hid => ?_, fun id hid => ?_,
    fun v => ?_⟩
  · rcases List.mem_append.1 hid with hid | hid
    · exact Nat.lt_of_lt_of_le (h₁.lt_size id hid) h₂.arena.size_le
    · exact h₂.lt_size id hid
  · rcases List.mem_append.1 hid with hid | hid
    · rw [h₂.arena.children_eq (h₁.lt_size id hid)]
      exact h₁.back id hid
    · exact h₂.back id hid
  · -- the entries of the first run reach in the grown arena what they reached before
    have hold : ∀ id ∈ ids₁, a''.varsOf id = a'.varsOf id :=
      fun id hid => h₂.arena.extends.varsOf_eq id (h₁.lt_size id hid)
    have h₁v := h₁.reach v
    have h₂v := h₂.reach v
    rw [hn] at h₂v
    simp only [List.mem_append, List.length_append]
    constructor
    · rintro ⟨id, hid | hid, hv⟩
      · rw [hold id hid] at hv
        have := h₁v.1 ⟨id, hid, hv⟩
        omega
      · have := h₂v.1 ⟨id, hid, hv⟩
        omega
    · intro hv
      by_cases hlt : v < cs.numVars + l₁.length
      · obtain ⟨id, hid, hv'⟩ := h₁v.2 ⟨hv.1, hlt⟩
        exact ⟨id, .inl hid, by rw [hold id hid]; exact hv'⟩
      · obtain ⟨id, hid, hv'⟩ := h₂v.2 ⟨by omega, by omega⟩
        exact ⟨id, .inr hid, hv'⟩

theorem BuildsFresh.alloc {own levels : List Level} {ids : List Nat} (hs : cs.FreshSlots own cs₁)
    (h : BuildsFresh a cs₁ levels ids a' cs') {e : Entry}
    (hkids : ∀ c, c ∈ (a'.alloc e).2.children a'.size ↔ c ∈ ids)
    (hslots : ∀ v, (∃ pe, e = .pointer pe ∧ v ∈ pe.slots) ↔ cs.numVars ≤ v ∧ v < cs.numVars + own.length) :
    BuildsFresh a cs (own ++ levels) [a'.size] (a'.alloc e).2 cs' := by
  have hn := hs.numVars
  have hback : ∀ c ∈ (a'.alloc e).2.children a'.size, c < a'.size :=
    fun c hc => h.lt_size c ((hkids c).1 hc)
  refine ⟨h.arena.trans (appends_alloc a' e), hs.trans h.store, fun id hid => ?_, fun id hid => ?_,
    fun v => ?_⟩
  · rw [List.mem_singleton.1 hid, size_alloc]
    exact Nat.lt_succ_self _
  · rw [List.mem_singleton.1 hid]
    exact hback
  · have hown : (∃ pe, (a'.alloc e).2.pointer? a'.size = some pe ∧ v ∈ pe.slots) ↔
        ∃ pe, e = .pointer pe ∧ v ∈ pe.slots := by
      simp [pointer?_eq_some, get?_alloc]
    -- the entries it embeds reach in the grown arena what they reached before
    have hkid : (∃ c ∈ (a'.alloc e).2.children a'.size, v ∈ ((a'.alloc e).2.varsOf c).toList) ↔
        ∃ c ∈ ids, v ∈ (a'.varsOf c).toList := by
      constructor
      · rintro ⟨c, hc, hv⟩
        have hc' := (hkids c).1 hc
        rw [(extends_alloc a' e).varsOf_eq c (h.lt_size c hc')] at hv
        exact ⟨c, hc', hv⟩
      · rintro ⟨c, hc, hv⟩
        refine ⟨c, (hkids c).2 hc, ?_⟩
        rw [(extends_alloc a' e).varsOf_eq c (h.lt_size c hc)]
        exact hv
    have hr := h.reach v
    rw [hn] at hr
    simp only [List.mem_singleton, exists_eq_left, List.length_append]
    rw [mem_varsOf_iff_of_back hback, hown, hkid, hr, hslots]
    omega

theorem buildsFresh_pointer {name base : String} {levels : List Level} {function : Option FunctionShape}
    {ann : Annotations} (hreg : cs.ConstraintsRegistered) (hne : levels ≠ [] ∨ function = none)
    (hemb : ∀ cs' : ConstraintStore, cs'.ConstraintsRegistered →
      BuildsFresh a cs' ((function.map FunctionShape.allLevels).getD []) (a.buildEmbedded cs' name function).1.toList
        (a.buildEmbedded cs' name function).2.1 (a.buildEmbedded cs' name function).2.2) :
    BuildsFresh a cs (TypeShape.allLevels ⟨base, levels, function⟩) [(a.build cs name ⟨base, levels, function⟩ ann).1]
      (a.build cs name ⟨base, levels, function⟩ ann).2.1 (a.build cs name ⟨base, levels, function⟩ ann).2.2 := by
  rw [build_pointer a cs name base levels function ann hne, TypeShape.allLevels_eq]
  dsimp only
  obtain ⟨hslots, -, -⟩ := foldl_levelStep levels ([], cs)
  set r := levels.foldl levelStep ([], cs)
  simp only [List.nil_append] at hslots
  -- the levels' slots, then a chain of them, then the embedded function
  have hs : cs.FreshSlots (levels ++ []) (r.2.registerChain r.1) :=
    (freshSlots_foldl_levelStep levels ([], cs) hreg).trans (freshSlots_registerChain _ _)
  have hb := hemb (r.2.registerChain r.1) (hs.registered hreg)
  set e := a.buildEmbedded (r.2.registerChain r.1) name function
  rw [List.append_nil] at hs
  refine BuildsFresh.alloc hs hb (fun c => ?_) fun v => ?_
  · simp [children, get?_alloc]
  · simp [hslots, List.mem_range'_1]

mutual

theorem buildsFresh_build (a : Arena) (cs : ConstraintStore) (name : String) (hreg : cs.ConstraintsRegistered) :
    ∀ (t : TypeShape) (ann : Annotations), BuildsFresh a cs t.allLevels [(a.build cs name t ann).1]
      (a.build cs name t ann).2.1 (a.build cs name t ann).2.2
  | ⟨base, [], some f⟩, ann => by
    rw [build.eq_1, TypeShape.allLevels, List.nil_append]
    exact buildsFresh_buildFunction a cs name hreg f ann
  | ⟨base, [], none⟩, ann =>
    buildsFresh_pointer hreg (.inr rfl) fun cs' _ => by
      rw [buildEmbedded]
      exact buildsFresh_refl a cs'
  | ⟨base, l :: ls, function⟩, ann =>
    buildsFresh_pointer hreg (.inl (List.cons_ne_nil l ls)) fun cs' h' =>
      buildsFresh_buildEmbedded a cs' name h' function

theorem buildsFresh_buildEmbedded (a : Arena) (cs : ConstraintStore) (name : String)
    (hreg : cs.ConstraintsRegistered) :
    ∀ f : Option FunctionShape, BuildsFresh a cs ((f.map FunctionShape.allLevels).getD [])
      (a.buildEmbedded cs name f).1.toList (a.buildEmbedded cs name f).2.1 (a.buildEmbedded cs name f).2.2
  | none => by
    rw [buildEmbedded]
    exact buildsFresh_refl a cs
  | some f => by
    rw [buildEmbedded_some]
    exact buildsFresh_buildFunction a cs name hreg f {}

theorem buildsFresh_buildFunction (a : Arena) (cs : ConstraintStore) (name : String)
    (hreg : cs.ConstraintsRegistered) :
    ∀ (f : FunctionShape) (ann : Annotations), BuildsFresh a cs f.allLevels [(a.buildFunction cs name f ann).1]
      (a.buildFunction cs name f ann).2.1 (a.buildFunction cs name f ann).2.2
  | ⟨ret, params, hasPrototype, variadic⟩, ann => by
    rw [buildFunction_eq, FunctionShape.allLevels]
    dsimp only
    -- the return, then the parameters, then the function over them
    have hr := buildsFresh_build a cs name hreg ret { itype := ann.itype, boundsInterop := ann.boundsInterop }
    set r := a.build cs name ret { itype := ann.itype, boundsInterop := ann.boundsInterop }
    have hps := buildsFresh_buildParams r.2.1 r.2.2 (hr.store.registered hreg) params
    rw [← List.nil_append (TypeShape.allLevels ret ++ _)]
    refine BuildsFresh.alloc (freshSlots_refl cs) (hr.trans hps) (fun c => ?_) fun v => ?_
    · simp [children, get?_alloc, List.flatMap_map]
    · simp

theorem buildsFresh_buildParams (a : Arena) (cs : ConstraintStore) (hreg : cs.ConstraintsRegistered) :
    ∀ ps : List ParamShape, BuildsFresh a cs (ParamShape.allLevelsList ps) (a.buildParams cs ps).1
      (a.buildParams cs ps).2.1 (a.buildParams cs ps).2.2
  | [] => by
    rw [buildParams, ParamShape.allLevelsList]
    exact buildsFresh_refl a cs
  | ⟨pname, ty, key, itype⟩ :: rest => by
    rw [buildParams_cons, ParamShape.allLevelsList]
    dsimp only
    have hr := buildsFresh_build a cs pname hreg ty { itype := itype }
    exact hr.trans (buildsFresh_buildParams _ _ (hr.store.registered hreg) rest)

end

theorem build_pointer_entry {name base : String} {levels : List Level} {function : Option FunctionShape}
    {ann : Annotations} (hreg : cs.ConstraintsRegistered) (hne : levels ≠ [] ∨ function = none) :
    ∃ pe, (a.build cs name ⟨base, levels, function⟩ ann).2.1.pointer? (a.build cs name ⟨base, levels, function⟩ ann).1 =
        some pe ∧ pe.slots = List.range' cs.numVars levels.length ∧
      pe.arrPresent = (levels.head? == some .array) ∧
      (2 ≤ pe.slots.length → pe.slots ∈ (a.build cs name ⟨base, levels, function⟩ ann).2.2.chains) := by
  rw [build_pointer a cs name base levels function ann hne]
  dsimp only
  obtain ⟨hslots, -, -⟩ := foldl_levelStep levels ([], cs)
  have hs := freshSlots_foldl_levelStep levels ([], cs) hreg
  set r := levels.foldl levelStep ([], cs)
  simp only [List.nil_append] at hslots
  -- the chain is registered before the embedded function is built, which only adds chains
  have hemb := buildsFresh_buildEmbedded a (r.2.registerChain r.1) name
    ((hs.trans (freshSlots_registerChain _ _)).registered hreg) function
  refine ⟨_, pointer?_alloc_self _ _, hslots, rfl, fun hlen => hemb.store.chains.subset ?_⟩
  rw [registerChain_chains, if_pos (show 1 < r.1.length from hlen)]
  exact List.mem_append_right _ (List.mem_singleton_self _)

theorem build_function_entry {name base : String} {f : FunctionShape} {ann : Annotations} :
    ∃ fe, (a.build cs name ⟨base, [], some f⟩ ann).2.1.function? (a.build cs name ⟨base, [], some f⟩ ann).1 =
        some fe ∧ (∃ x, fe.returns = SortedSet.singleton x) ∧ fe.params.length = f.params.length ∧
      ∀ s ∈ fe.params, ∃ x, s = SortedSet.singleton x := by
  have hshape := shapedAs_build a cs name ⟨base, [], some f⟩ ann
  obtain ⟨ret, params, hasPrototype, variadic⟩ := f
  rw [ShapedAs, FunctionShapedAs] at hshape
  obtain ⟨fe, hf, ⟨x, hx, -⟩, hps⟩ := hshape
  obtain ⟨xs, hxs, hall⟩ := ParamsShapedAs.eq_map hps
  refine ⟨fe, hf, ⟨x, hx⟩, by rw [hxs, List.length_map, hall.length_eq], fun s hs => ?_⟩
  rw [hxs] at hs
  obtain ⟨y, -, rfl⟩ := List.mem_map.1 hs
  exact ⟨y, rfl⟩

/-- The code numbers a fresh slot by the store's size as a 32-bit word. While the store holds at most
`2^32` slots after the build, the slots an entry's build takes keep apart, as 32-bit words, from
every slot registered then. -/
theorem build_slots_fit_u32 (a : Arena) (cs : ConstraintStore) (name : String) (t : TypeShape)
    (ann : Annotations) (hreg : cs.ConstraintsRegistered) (hfit : cs.numVars + t.slotCount ≤ 2 ^ 32) :
    ∀ v ∈ ((a.build cs name t ann).2.1.varsOf (a.build cs name t ann).1).toList,
      ∀ w < (a.build cs name t ann).2.2.numVars, v.toUInt32 = w.toUInt32 → v = w := by
  have h := buildsFresh_build a cs name hreg t ann
  have hn : (a.build cs name t ann).2.2.numVars = cs.numVars + t.slotCount := by
    rw [numVars, h.store.env, Array.size_append, Array.size_replicate, TypeShape.length_allLevels]
    rfl
  intro v hv w hw
  -- the slots the entry reaches are those from `cs.numVars` up to the new size
  have hv' : v < cs.numVars + t.slotCount := by
    have hr := ((h.reach v).1 ⟨_, List.mem_singleton_self _, hv⟩).2
    rwa [TypeShape.length_allLevels] at hr
  exact toUInt32_inj_of_lt (by omega) (by omega)

end Arena

end CheckedPointers
