import CheckedPointers.Arena.Build
import CheckedPointers.Arena.Unify
import CheckedPointers.Proofs.StoreSteps
import CheckedPointers.Proofs.Sorted

/-!
# How the arena grows

The arena only ever appends entries and records call-site arguments on pointer entries, so every
entry keeps its slots, its function, its returns and its parameters (`Arena.Extends`). Every slot
of every entry is registered in the store (`Arena.SlotsBelow`), so each operation that constrains
the slots of entries, however many entries it visits, is a run of store steps from any store that
registers them (`GrowsFrom`).

An entry is chained when it is a pointer whose slots, if there are two or more, form a registered
chain, and everything it embeds is chained (`Arena.Chained`). Building an entry from a type shape
gives a chained entry, with fresh slots of which those of array levels are bounded by `arr`.
-/

namespace CheckedPointers

open ConstraintStore

/-- An entry without the call-site arguments recorded on it: the part the arena never changes. -/
def Entry.shape : Entry → Entry
  | .pointer p => .pointer { p with arguments := SortedSet.empty }
  | .function f => .function f

theorem Entry.shape_eq_pointer {e : Entry} {pe : PointerEntry}
    (h : e.shape = (Entry.pointer pe).shape) :
    ∃ pe', e = .pointer pe' ∧ pe'.slots = pe.slots ∧ pe'.function = pe.function := by
  cases e with
  | pointer pe' =>
    simp only [shape, pointer.injEq] at h
    exact ⟨pe', rfl, by simpa using congrArg PointerEntry.slots h,
      by simpa using congrArg PointerEntry.function h⟩
  | function f => simp [shape] at h

theorem Entry.shape_eq_function {e : Entry} {fe : FunctionEntry}
    (h : e.shape = (Entry.function fe).shape) : e = .function fe := by
  cases e with
  | pointer pe' => simp [shape] at h
  | function f => simpa [shape] using h

namespace Arena

variable {a a' a'' : Arena} {id : Nat} {pe : PointerEntry} {fe : FunctionEntry} {e : Entry}

theorem pointer?_eq_some : a.pointer? id = some pe ↔ a.get? id = some (.pointer pe) := by
  unfold pointer?
  split <;> simp_all

theorem function?_eq_some : a.function? id = some fe ↔ a.get? id = some (.function fe) := by
  unfold function?
  split <;> simp_all

theorem lt_size_of_get? (h : a.get? id = some e) : id < a.size := by
  unfold get? at h
  by_contra hn
  rw [Array.getElem?_eq_none (by unfold size at hn; omega)] at h
  cases h

/-! ## Growth -/

/-- The arena `a'` keeps every entry of `a` at its number, up to the arguments recorded on it. -/
structure Extends (a a' : Arena) : Prop where
  size_le : a.size ≤ a'.size
  shape : ∀ id e, a.get? id = some e → ∃ e', a'.get? id = some e' ∧ e'.shape = e.shape

theorem Extends.refl (a : Arena) : a.Extends a := ⟨Nat.le_refl _, fun _ e h => ⟨e, h, rfl⟩⟩

theorem Extends.trans (h : a.Extends a') (h' : a'.Extends a'') : a.Extends a'' := by
  refine ⟨Nat.le_trans h.size_le h'.size_le, fun id e he => ?_⟩
  obtain ⟨e', he', hs'⟩ := h.shape id e he
  obtain ⟨e'', he'', hs''⟩ := h'.shape id e' he'
  exact ⟨e'', he'', hs''.trans hs'⟩

theorem Extends.pointer? (h : a.Extends a') (hp : a.pointer? id = some pe) :
    ∃ pe', a'.pointer? id = some pe' ∧ pe'.slots = pe.slots ∧ pe'.function = pe.function := by
  obtain ⟨e', he', hs⟩ := h.shape id _ (pointer?_eq_some.1 hp)
  obtain ⟨pe', rfl, hslots, hfun⟩ := Entry.shape_eq_pointer hs
  exact ⟨pe', pointer?_eq_some.2 he', hslots, hfun⟩

theorem Extends.pointer?_of_lt (h : a.Extends a') (hlt : id < a.size) (hp : a'.pointer? id = some pe) :
    ∃ pe₀, a.pointer? id = some pe₀ ∧ pe₀.slots = pe.slots := by
  obtain ⟨e, he⟩ : ∃ e, a.get? id = some e := ⟨_, Array.getElem?_eq_getElem hlt⟩
  obtain ⟨e', he', hs⟩ := h.shape id e he
  rw [pointer?_eq_some.1 hp, Option.some.injEq] at he'
  subst he'
  obtain ⟨pe₀, rfl, hslots, -⟩ := Entry.shape_eq_pointer hs.symm
  exact ⟨pe₀, pointer?_eq_some.2 he, hslots⟩

theorem Extends.function? (h : a.Extends a') (hf : a.function? id = some fe) :
    a'.function? id = some fe := by
  obtain ⟨e', he', hs⟩ := h.shape id _ (function?_eq_some.1 hf)
  rw [Entry.shape_eq_function hs] at he'
  exact function?_eq_some.2 he'

@[simp] theorem alloc_fst (a : Arena) (e : Entry) : (a.alloc e).1 = a.size := rfl

@[simp] theorem size_alloc (a : Arena) (e : Entry) : (a.alloc e).2.size = a.size + 1 := by
  simp [alloc, size]

theorem get?_alloc (a : Arena) (e : Entry) (id : Nat) :
    (a.alloc e).2.get? id = if id = a.size then some e else a.get? id := by
  simp only [alloc, get?, size]
  exact Array.getElem?_push

theorem extends_alloc (a : Arena) (e : Entry) : a.Extends (a.alloc e).2 := by
  refine ⟨by simp, fun id e' he' => ⟨e', ?_, rfl⟩⟩
  rw [get?_alloc, if_neg (Nat.ne_of_lt (lt_size_of_get? he'))]
  exact he'

theorem pointer?_alloc_self (a : Arena) (pe : PointerEntry) :
    (a.alloc (.pointer pe)).2.pointer? a.size = some pe :=
  pointer?_eq_some.2 (by simp [get?_alloc])

theorem function?_alloc_self (a : Arena) (fe : FunctionEntry) :
    (a.alloc (.function fe)).2.function? a.size = some fe :=
  function?_eq_some.2 (by simp [get?_alloc])

@[simp] theorem size_recordArgument (a : Arena) (param arg : Nat) :
    (a.recordArgument param arg).size = a.size := by
  unfold recordArgument
  split <;> simp [size]

theorem shape_recordArgument (a : Arena) (param arg id : Nat) :
    ((a.recordArgument param arg).get? id).map Entry.shape = (a.get? id).map Entry.shape := by
  unfold recordArgument
  split
  · next p hp =>
    simp only [get?, Array.set!_eq_setIfInBounds, Array.getElem?_setIfInBounds]
    by_cases hid : param = id
    · subst hid
      have hlt : param < a.entries.size := lt_size_of_get? hp
      have hget : a.entries[param] = .pointer p := by
        simpa [get?, Array.getElem?_eq_getElem hlt] using hp
      simp [hlt, hget, Entry.shape]
    · simp [hid]
  · rfl

theorem extends_recordArgument (a : Arena) (param arg : Nat) : a.Extends (a.recordArgument param arg) := by
  refine ⟨by simp, fun id e he => ?_⟩
  have h := shape_recordArgument a param arg id
  rw [he] at h
  obtain ⟨e', he', hs⟩ := Option.map_eq_some_iff.1 h
  exact ⟨e', he', hs⟩

theorem recordArgument_extends (a : Arena) (param arg : Nat) : (a.recordArgument param arg).Extends a := by
  refine ⟨by simp, fun id e he => ?_⟩
  have h := (shape_recordArgument a param arg id).symm
  rw [he] at h
  obtain ⟨e', he', hs⟩ := Option.map_eq_some_iff.1 h
  exact ⟨e', he', hs⟩

/-! ## Registered slots -/

/-- Every slot of every entry is below `n`. -/
def SlotsBelow (a : Arena) (n : Nat) : Prop :=
  ∀ id pe, a.pointer? id = some pe → ∀ v ∈ pe.slots, v < n

theorem SlotsBelow.mono {n n' : Nat} (h : a.SlotsBelow n) (hn : n ≤ n') : a.SlotsBelow n' :=
  fun id pe hp v hv => Nat.lt_of_lt_of_le (h id pe hp v hv) hn

theorem SlotsBelow.of_extends {n : Nat} (h : a.SlotsBelow n) (h' : a'.Extends a) : a'.SlotsBelow n := by
  intro id pe hp v hv
  obtain ⟨pe', hp', hslots, -⟩ := h'.pointer? hp
  exact h id pe' hp' v (hslots ▸ hv)

theorem SlotsBelow.alloc {n : Nat} (h : a.SlotsBelow n) (he : ∀ pe, e = .pointer pe → ∀ v ∈ pe.slots, v < n) :
    (a.alloc e).2.SlotsBelow n := by
  intro id pe hp v hv
  rw [pointer?_eq_some, get?_alloc] at hp
  split at hp
  · exact he pe (Option.some.inj hp) v hv
  · exact h id pe (pointer?_eq_some.2 hp) v hv

theorem mem_varsOf {v : Nat} (h : v ∈ (a.varsOf id).toList) : ∃ j pe, a.pointer? j = some pe ∧ v ∈ pe.slots := by
  induction id using Nat.strongRecOn with
  | ind id ih =>
    rw [varsOf] at h
    have hstep : ∀ (l : List { c // c ∈ a.children id }) (acc : SortedSet Nat),
        v ∈ (l.foldl (fun acc c => if _h : c.1 < id then acc.union (a.varsOf c.1) else acc) acc).toList →
        v ∈ acc.toList ∨ ∃ j pe, a.pointer? j = some pe ∧ v ∈ pe.slots := by
      intro l
      induction l with
      | nil => exact fun acc h => .inl h
      | cons c cs ihl =>
        intro acc hmem
        rcases ihl _ hmem with hmem | hmem
        · dsimp only at hmem
          split at hmem
          · next hc =>
            rcases SortedSet.mem_union hmem with hmem | hmem
            · exact .inl hmem
            · exact .inr (ih c.1 hc hmem)
          · exact .inl hmem
        · exact .inr hmem
    rcases hstep _ _ h with h | h
    · split at h
      · next p hp => exact ⟨id, p, pointer?_eq_some.2 hp, SortedSet.mem_ofList h⟩
      · cases h
    · exact h

theorem mem_varsOf_of_pointer (hp : a.pointer? id = some pe) {v : Nat} (hv : v ∈ pe.slots) :
    v ∈ (a.varsOf id).toList := by
  rw [varsOf]
  -- the entries it refers to only add slots
  have hstep : ∀ (l : List { c // c ∈ a.children id }) (acc : SortedSet Nat), v ∈ acc.toList →
      v ∈ (l.foldl (fun acc c => if _h : c.1 < id then acc.union (a.varsOf c.1) else acc) acc).toList := by
    intro l
    induction l with
    | nil => exact fun acc h => h
    | cons c cs ihl =>
      intro acc h
      refine ihl _ ?_
      dsimp only
      split
      · exact SortedSet.mem_union_left h
      · exact h
  apply hstep
  rw [pointer?_eq_some.1 hp]
  exact SortedSet.mem_ofList_of_mem hv

theorem SlotsBelow.varsOf {n : Nat} (h : a.SlotsBelow n) {v : Nat} (hv : v ∈ (a.varsOf id).toList) : v < n := by
  obtain ⟨j, pe, hp, hv⟩ := mem_varsOf hv
  exact h j pe hp v hv

/-! ## Chained entries -/

/-- A pointer entry whose two or more slots form a registered chain, or a function entry, with
everything it embeds chained as well. -/
inductive Chained (a : Arena) (chains : List (List Nat)) : Nat → Prop
  | pointer (id : Nat) (pe : PointerEntry) (h : a.pointer? id = some pe)
      (hslots : 2 ≤ pe.slots.length → pe.slots ∈ chains) (hfun : ∀ f ∈ pe.function, Chained a chains f) :
      Chained a chains id
  | function (id : Nat) (fe : FunctionEntry) (h : a.function? id = some fe)
      (hret : ∀ r ∈ fe.returns.toList, Chained a chains r)
      (hparam : ∀ s ∈ fe.params, ∀ x ∈ s.toList, Chained a chains x) : Chained a chains id

theorem Chained.params {chains : List (List Nat)} (hc : a.Chained chains id) (hf : a.function? id = some fe) :
    ∀ s ∈ fe.params, ∀ x ∈ s.toList, a.Chained chains x := by
  cases hc with
  | pointer _ pe hp _ _ =>
    rw [pointer?_eq_some] at hp
    rw [function?_eq_some, hp] at hf
    cases hf
  | function _ fe' hf' _ hparam =>
    rw [hf'] at hf
    cases hf
    exact hparam

theorem Chained.slots {chains : List (List Nat)} (hc : a.Chained chains id) (hp : a.pointer? id = some pe) :
    2 ≤ pe.slots.length → pe.slots ∈ chains := by
  cases hc with
  | pointer _ pe' hp' hslots _ =>
    rw [hp'] at hp
    cases hp
    exact hslots
  | function _ fe hf _ _ =>
    rw [function?_eq_some] at hf
    rw [pointer?_eq_some, hf] at hp
    cases hp

theorem Chained.pointee {chains : List (List Nat)} (hc : a.Chained chains id) (hp : a.pointer? id = some pe) :
    ∀ f ∈ pe.function, a.Chained chains f := by
  cases hc with
  | pointer _ pe' hp' _ hfun =>
    rw [hp'] at hp
    cases hp
    exact hfun
  | function _ fe hf _ _ =>
    rw [function?_eq_some] at hf
    rw [pointer?_eq_some, hf] at hp
    cases hp

theorem Chained.returns {chains : List (List Nat)} (hc : a.Chained chains id) (hf : a.function? id = some fe) :
    ∀ r ∈ fe.returns.toList, a.Chained chains r := by
  cases hc with
  | pointer _ pe hp _ _ =>
    rw [pointer?_eq_some] at hp
    rw [function?_eq_some, hp] at hf
    cases hf
  | function _ fe' hf' hret _ =>
    rw [hf'] at hf
    cases hf
    exact hret

theorem Chained.mono {chains chains' : List (List Nat)} (h : a.Extends a') (hch : ∀ c ∈ chains, c ∈ chains')
    (hc : a.Chained chains id) : a'.Chained chains' id := by
  induction hc with
  | pointer id pe hp hslots hfun ih =>
    obtain ⟨pe', hp', hs, hf⟩ := h.pointer? hp
    refine .pointer id pe' hp' (fun hl => ?_) fun f hf' => ih f (hf ▸ hf')
    rw [hs] at hl ⊢
    exact hch _ (hslots hl)
  | function id fe hf hret hparam ihr ihp =>
    exact .function id fe (h.function? hf) ihr ihp

theorem Chained.lt_size {chains : List (List Nat)} (hc : a.Chained chains id) : id < a.size := by
  cases hc with
  | pointer _ pe hp _ _ => exact lt_size_of_get? (pointer?_eq_some.1 hp)
  | function _ fe hf _ _ => exact lt_size_of_get? (function?_eq_some.1 hf)

end Arena

/-! ## Constraining the slots of entries -/

namespace ConstraintStore

/-- The change `f` is a run of store steps from every store with at least `n` slots. -/
def GrowsFrom (n : Nat) (f : ConstraintStore → ConstraintStore) : Prop :=
  ∀ cs : ConstraintStore, n ≤ cs.numVars → cs.Grows (f cs)

namespace GrowsFrom

variable {n : Nat} {f g : ConstraintStore → ConstraintStore}

theorem id (n : Nat) : GrowsFrom n fun cs => cs := fun cs _ => Grows.refl cs

theorem comp (hf : GrowsFrom n f) (hg : GrowsFrom n g) : GrowsFrom n fun cs => g (f cs) := by
  intro cs hcs
  have h := hf cs hcs
  exact h.trans (hg _ (Nat.le_trans hcs h.extends.numVars_le))

theorem foldl {β : Type} {l : List β} {f : ConstraintStore → β → ConstraintStore}
    (hf : ∀ x ∈ l, GrowsFrom n fun cs => f cs x) : GrowsFrom n fun cs => l.foldl f cs := by
  induction l with
  | nil => exact id n
  | cons x xs ih =>
    exact (hf x List.mem_cons_self).comp (ih fun y hy => hf y (List.mem_cons_of_mem x hy))

variable {v : Nat} {q : Qualifier} {reason : String} {loc : Option SourceLoc}

theorem addGeq (hv : v < n) (hr : reason = Reason.arrayDecl → q = .arr) :
    GrowsFrom n fun cs => (cs.addGeq v q reason loc).2 :=
  fun _ hcs => (StoreStep.addGeq (Nat.lt_of_lt_of_le hv hcs) hr).grows

theorem addWild (hv : v < n) (hr : reason ≠ Reason.arrayDecl) :
    GrowsFrom n fun cs => (cs.addWild v reason loc).2 :=
  fun _ hcs => (StoreStep.addWild (Nat.lt_of_lt_of_le hv hcs) hr).grows

theorem addEq {l r : Atom} (hl : ∀ v, l = .var v → v < n) (hr : ∀ v, r = .var v → v < n)
    (hreason : reason ≠ Reason.arrayDecl) : GrowsFrom n fun cs => (cs.addEq l r reason loc).2 :=
  fun _ hcs => (StoreStep.addEq (fun v hv => Nat.lt_of_lt_of_le (hl v hv) hcs)
    (fun v hv => Nat.lt_of_lt_of_le (hr v hv) hcs) hreason).grows

end GrowsFrom

end ConstraintStore

namespace Arena

variable {a a' a'' ar : Arena} {id n : Nat} {reason : String} {loc : Option SourceLoc}

theorem growsFrom_constrainToWild (hs : ar.SlotsBelow n) (hr : reason ≠ Reason.arrayDecl) (id : Nat) :
    GrowsFrom n fun cs => ar.constrainToWild cs id reason loc :=
  GrowsFrom.foldl fun _ hv => GrowsFrom.addWild (hs.varsOf hv) hr

theorem growsFrom_constrainSetToWild (hs : ar.SlotsBelow n) (hr : reason ≠ Reason.arrayDecl)
    (s : SortedSet Nat) : GrowsFrom n fun cs => ar.constrainSetToWild cs s reason loc :=
  GrowsFrom.foldl fun id _ => growsFrom_constrainToWild hs hr id

theorem sum_induction {P : Nat → Nat → Prop} (step : ∀ a b, (∀ i j, i + j < a + b → P i j) → P a b) :
    ∀ a b, P a b := by
  suffices h : ∀ s a b, a + b = s → P a b from fun a b => h _ a b rfl
  intro s
  induction s using Nat.strongRecOn with
  | ind s ih =>
    rintro a b rfl
    exact step a b fun i j hij => ih _ hij i j rfl

theorem growsFrom_constrainEq (hs : ar.SlotsBelow n) (hr : reason ≠ Reason.arrayDecl) (a b : Nat) :
    GrowsFrom n fun cs => ar.constrainEq cs a b reason loc := by
  -- every recursive call equates entries of smaller numbers on both sides
  induction a, b using sum_induction with
  | step a b ih =>
    intro cs hcs
    have hzip : ∀ pa pb : PointerEntry, ar.get? a = some (.pointer pa) → ar.get? b = some (.pointer pb) →
        GrowsFrom n fun cs => (pa.slots.zip pb.slots).foldl
          (fun cs x => (cs.addEq (.var x.1) (.var x.2) reason loc).2) cs := by
      intro pa pb hpa hpb
      refine GrowsFrom.foldl fun x hx => GrowsFrom.addEq ?_ ?_ hr
      · rintro v ⟨⟩
        exact hs a pa (pointer?_eq_some.2 hpa) _ (List.of_mem_zip hx).1
      · rintro v ⟨⟩
        exact hs b pb (pointer?_eq_some.2 hpb) _ (List.of_mem_zip hx).2
    have hsets : ∀ x y : SortedSet Nat, GrowsFrom n fun cs => x.toList.attach.foldl (fun cs i =>
        y.toList.attach.foldl (fun cs j =>
          if _h : i.1 < a ∧ j.1 < b then ar.constrainEq cs i.1 j.1 reason loc else cs) cs) cs := by
      intro x y
      refine GrowsFrom.foldl fun i _ => GrowsFrom.foldl fun j _ => ?_
      intro cs hcs
      dsimp only
      split
      · next hij => exact ih i.1 j.1 (by omega) cs hcs
      · exact Grows.refl cs
    have hboth : ∀ why, why ≠ Reason.arrayDecl →
        GrowsFrom n fun cs => ar.constrainToWild (ar.constrainToWild cs a why loc) b why loc :=
      fun why hwhy => (growsFrom_constrainToWild hs hwhy a).comp (growsFrom_constrainToWild hs hwhy b)
    show cs.Grows (ar.constrainEq cs a b reason loc)
    rw [constrainEq]
    dsimp only
    split
    · exact Grows.refl cs
    split
    · -- two pointers: level by level, then their embedded functions
      next pa pb hpa hpb =>
      split
      · split
        · exact hboth _ (by decide) cs hcs
        · exact Grows.refl cs
      · split
        · split
          · exact ((hzip pa pb hpa hpb).comp (ih _ _ (by omega))) cs hcs
          · exact hzip pa pb hpa hpb cs hcs
        · exact hzip pa pb hpa hpb cs hcs
    · -- two functions: returns, then parameters position by position
      next fa fb _ _ =>
      split
      · exact ((hsets fa.returns fb.returns).comp
          (GrowsFrom.foldl fun x _ => hsets x.1 x.2)) cs hcs
      · split
        · exact ((hsets fa.returns fb.returns).comp (hboth _ (by decide))) cs hcs
        · exact hsets fa.returns fb.returns cs hcs
    · -- a pointer against a function: its embedded function against the function
      split
      · split
        · exact ih _ b (by omega) cs hcs
        · exact Grows.refl cs
      · exact hboth _ (by decide) cs hcs
    · split
      · split
        · exact ih _ a (by omega) cs hcs
        · exact Grows.refl cs
      · exact hboth _ (by decide) cs hcs
    · exact Grows.refl cs

theorem growsFrom_constrainEqSets (hs : ar.SlotsBelow n) (hr : reason ≠ Reason.arrayDecl)
    (x y : SortedSet Nat) : GrowsFrom n fun cs => ar.constrainEqSets cs x y reason loc :=
  GrowsFrom.foldl fun i _ => GrowsFrom.foldl fun j _ => growsFrom_constrainEq hs hr i j

/-! ## Building entries -/

/-- One level of a pointer entry under construction: a fresh slot, bounded by `arr` for an array
level. -/
def levelStep (acc : List Nat × ConstraintStore) (l : Level) : List Nat × ConstraintStore :=
  let (v, cs) := acc.2.fresh
  let cs := match l with
    | .array => (cs.addGeq v .arr Reason.arrayDecl none).2
    | .pointer => cs
  (acc.1 ++ [v], cs)

theorem build_pointer (a : Arena) (cs : ConstraintStore) (name base : String) (levels : List Level)
    (function : Option FunctionShape) (ann : Annotations) (h : levels ≠ [] ∨ function = none) :
    a.build cs name ⟨base, levels, function⟩ ann =
      let r := levels.foldl levelStep ([], cs)
      let e := a.buildEmbedded (r.2.registerChain r.1) name function
      (e.2.1.size, (e.2.1.alloc (.pointer ⟨name, base, r.1, e.1, levels.head? == some .array,
        ann.itype, ann.boundsInterop, SortedSet.empty⟩)).2, e.2.2) := by
  rw [build.eq_2 _ _ _ _ _ _ _ (by rintro f rfl rfl; simp at h)]
  rfl

theorem buildFunction_eq (a : Arena) (cs : ConstraintStore) (name : String) (ret : TypeShape)
    (params : List ParamShape) (hasPrototype variadic : Bool) (ann : Annotations) :
    a.buildFunction cs name ⟨ret, params, hasPrototype, variadic⟩ ann =
      let r := a.build cs name ret { itype := ann.itype, boundsInterop := ann.boundsInterop }
      let ps := r.2.1.buildParams r.2.2 params
      (ps.2.1.size, (ps.2.1.alloc (.function ⟨name, SortedSet.singleton r.1,
        ps.1.map SortedSet.singleton, ann.hasBody, hasPrototype, variadic⟩)).2, ps.2.2) := by
  rw [buildFunction]
  rfl

theorem buildEmbedded_some (a : Arena) (cs : ConstraintStore) (name : String) (f : FunctionShape) :
    a.buildEmbedded cs name (some f) =
      (some (a.buildFunction cs name f {}).1, (a.buildFunction cs name f {}).2.1,
        (a.buildFunction cs name f {}).2.2) := by
  rw [buildEmbedded]

theorem buildParams_cons (a : Arena) (cs : ConstraintStore) (p : ParamShape) (rest : List ParamShape) :
    a.buildParams cs (p :: rest) =
      let r := a.build cs p.name p.ty { itype := p.itype }
      let ps := r.2.1.buildParams r.2.2 rest
      (r.1 :: ps.1, ps.2.1, ps.2.2) := by
  obtain ⟨pname, ty, key, itype⟩ := p
  rw [buildParams]

theorem levelStep_fst (acc : List Nat × ConstraintStore) (l : Level) :
    (levelStep acc l).1 = acc.1 ++ [acc.2.numVars] := by
  cases l <;> rfl

theorem levelStep_numVars (acc : List Nat × ConstraintStore) (l : Level) :
    (levelStep acc l).2.numVars = acc.2.numVars + 1 := by
  cases l <;> simp [levelStep, numVars]

theorem grows_levelStep (acc : List Nat × ConstraintStore) (l : Level) :
    acc.2.Grows (levelStep acc l).2 := by
  have hfresh : acc.2.Grows acc.2.fresh.2 := (StoreStep.fresh acc.2).grows
  cases l with
  | pointer => exact hfresh
  | array =>
    exact hfresh.trans (StoreStep.addGeq (by simp [numVars]) fun _ => rfl).grows

theorem foldl_levelStep (levels : List Level) (acc : List Nat × ConstraintStore) :
    (levels.foldl levelStep acc).1 = acc.1 ++ List.range' acc.2.numVars levels.length ∧
      (levels.foldl levelStep acc).2.numVars = acc.2.numVars + levels.length ∧
      acc.2.Grows (levels.foldl levelStep acc).2 := by
  induction levels generalizing acc with
  | nil => exact ⟨by simp, rfl, Grows.refl _⟩
  | cons l ls ih =>
    obtain ⟨h1, h2, h3⟩ := ih (levelStep acc l)
    rw [levelStep_fst, levelStep_numVars] at h1
    rw [levelStep_numVars] at h2
    refine ⟨?_, ?_, (grows_levelStep acc l).trans h3⟩
    · rw [List.foldl_cons, h1, List.length_cons, List.range'_succ]
      simp
    · rw [List.foldl_cons, h2, List.length_cons]
      omega

/-- What building from `a` and `cs` did, ending at `a'` and `cs'` with the entries `ids`: arena and
store grew, every entry's slots are registered, and the entries built are chained. -/
structure Builds (a : Arena) (cs : ConstraintStore) (ids : List Nat) (a' : Arena)
    (cs' : ConstraintStore) : Prop where
  arena : a.Extends a'
  store : cs.Grows cs'
  slots : a'.SlotsBelow cs'.numVars
  chained : ∀ id ∈ ids, a'.Chained cs'.chains id

theorem Builds.refl {cs : ConstraintStore} (h : a.SlotsBelow cs.numVars) : Builds a cs [] a cs :=
  ⟨Extends.refl a, Grows.refl cs, h, fun _ h => nomatch h⟩

theorem Builds.trans {cs cs₁ cs₂ : ConstraintStore} {ids ids' : List Nat}
    (h : Builds a cs ids a' cs₁) (h' : Builds a' cs₁ ids' a'' cs₂) : Builds a cs (ids ++ ids') a'' cs₂ := by
  refine ⟨h.arena.trans h'.arena, h.store.trans h'.store, h'.slots, fun id hid => ?_⟩
  rcases List.mem_append.1 hid with hid | hid
  · exact (h.chained id hid).mono h'.arena fun c hc => h'.store.extends.chains.subset hc
  · exact h'.chained id hid

theorem builds_pointer {cs : ConstraintStore} {name base : String} {levels : List Level}
    {function : Option FunctionShape} {ann : Annotations} (h : a.SlotsBelow cs.numVars)
    (hne : levels ≠ [] ∨ function = none)
    (hemb : ∀ cs' : ConstraintStore, a.SlotsBelow cs'.numVars →
      Builds a cs' (a.buildEmbedded cs' name function).1.toList (a.buildEmbedded cs' name function).2.1
        (a.buildEmbedded cs' name function).2.2) :
    Builds a cs [(a.build cs name ⟨base, levels, function⟩ ann).1]
      (a.build cs name ⟨base, levels, function⟩ ann).2.1 (a.build cs name ⟨base, levels, function⟩ ann).2.2 := by
  rw [build_pointer a cs name base levels function ann hne]
  dsimp only
  obtain ⟨hslots, hnum, hgrow⟩ := foldl_levelStep levels ([], cs)
  set r := levels.foldl levelStep ([], cs)
  dsimp only at hslots hnum hgrow
  simp only [List.nil_append] at hslots
  have hfresh : ∀ v ∈ r.1, cs.numVars ≤ v ∧ v < r.2.numVars := by
    intro v hv
    rw [hslots, List.mem_range'_1] at hv
    omega
  have hchain : StoreStep r.2 (r.2.registerChain r.1) := by
    refine .chain _ _ (fun v hv => (hfresh v hv).2) fun v hv => ?_
    -- the outermost slot is fresh, so it is still at `ptr`
    rw [hgrow.extends.read_eq v, read_of_size_le (hfresh v (List.mem_of_mem_head? hv)).1]
  have hb := hemb (r.2.registerChain r.1)
    (h.mono (Nat.le_trans hgrow.extends.numVars_le hchain.extends.numVars_le))
  set e := a.buildEmbedded (r.2.registerChain r.1) name function
  have hstore : cs.Grows e.2.2 := hgrow.trans (hchain.grows.trans hb.store)
  have hle : r.2.numVars ≤ e.2.2.numVars :=
    Nat.le_trans hchain.extends.numVars_le hb.store.extends.numVars_le
  refine ⟨hb.arena.trans (extends_alloc _ _), hstore, ?_, ?_⟩
  · refine hb.slots.alloc fun pe hpe v hv => ?_
    cases hpe
    exact Nat.lt_of_lt_of_le (hfresh v hv).2 hle
  · intro id hid
    rw [List.mem_singleton.1 hid]
    refine .pointer _ _ (pointer?_alloc_self _ _) (fun hlen => ?_) fun f hf => ?_
    · dsimp only at hlen ⊢
      apply hb.store.extends.chains.subset
      rw [registerChain_chains, if_pos (by omega)]
      exact List.mem_append_right _ (List.mem_singleton_self _)
    · exact (hb.chained f (Option.mem_toList.2 hf)).mono (extends_alloc _ _) fun _ h => h

mutual

theorem builds_build (a : Arena) (cs : ConstraintStore) (name : String) (h : a.SlotsBelow cs.numVars) :
    ∀ (ty : TypeShape) (ann : Annotations), Builds a cs [(a.build cs name ty ann).1]
      (a.build cs name ty ann).2.1 (a.build cs name ty ann).2.2
  | ⟨base, [], some f⟩, ann => by
    rw [build.eq_1]
    exact builds_buildFunction a cs name h f ann
  | ⟨base, [], none⟩, ann =>
    builds_pointer h (.inr rfl) fun cs' h' => by
      rw [buildEmbedded]
      exact Builds.refl h'
  | ⟨base, l :: ls, function⟩, ann =>
    builds_pointer h (.inl (List.cons_ne_nil l ls)) fun cs' h' =>
      builds_buildEmbedded a cs' name h' function

theorem builds_buildEmbedded (a : Arena) (cs : ConstraintStore) (name : String)
    (h : a.SlotsBelow cs.numVars) :
    ∀ f : Option FunctionShape, Builds a cs (a.buildEmbedded cs name f).1.toList
      (a.buildEmbedded cs name f).2.1 (a.buildEmbedded cs name f).2.2
  | none => by
    rw [buildEmbedded]
    exact Builds.refl h
  | some f => by
    rw [buildEmbedded_some]
    exact builds_buildFunction a cs name h f {}

theorem builds_buildFunction (a : Arena) (cs : ConstraintStore) (name : String)
    (h : a.SlotsBelow cs.numVars) :
    ∀ (f : FunctionShape) (ann : Annotations), Builds a cs [(a.buildFunction cs name f ann).1]
      (a.buildFunction cs name f ann).2.1 (a.buildFunction cs name f ann).2.2
  | ⟨ret, params, hasPrototype, variadic⟩, ann => by
    rw [buildFunction_eq]
    dsimp only
    have hr := builds_build a cs name h ret { itype := ann.itype, boundsInterop := ann.boundsInterop }
    have hps := builds_buildParams _ _ hr.slots params
    have hb := hr.trans hps
    refine ⟨hb.arena.trans (extends_alloc _ _), hb.store, hps.slots.alloc (fun _ h => nomatch h), ?_⟩
    intro id hid
    rw [List.mem_singleton.1 hid]
    refine .function _ _ (function?_alloc_self _ _) (fun x hx => ?_) fun s hs x hx => ?_
    · -- the return is the entry built first
      rw [SortedSet.toList_singleton, List.mem_singleton] at hx
      subst hx
      exact (hb.chained _ (List.mem_append_left _ (List.mem_singleton_self _))).mono
        (extends_alloc _ _) fun _ h => h
    · obtain ⟨y, hy, rfl⟩ := List.mem_map.1 hs
      rw [SortedSet.toList_singleton, List.mem_singleton] at hx
      subst hx
      exact (hps.chained _ hy).mono (extends_alloc _ _) fun _ h => h

theorem builds_buildParams (a : Arena) (cs : ConstraintStore) (h : a.SlotsBelow cs.numVars) :
    ∀ ps : List ParamShape, Builds a cs (a.buildParams cs ps).1 (a.buildParams cs ps).2.1
      (a.buildParams cs ps).2.2
  | [] => by
    rw [buildParams]
    exact Builds.refl h
  | ⟨pname, ty, key, itype⟩ :: rest => by
    rw [buildParams_cons]
    dsimp only
    have hr := builds_build a cs pname h ty { itype := itype }
    exact hr.trans (builds_buildParams _ _ hr.slots rest)

end

/-! ## Views of entries -/

theorem builds_allocFresh {cs : ConstraintStore} {pe : PointerEntry} (h : a.SlotsBelow cs.numVars)
    (hhead : pe.slots.head? = some cs.numVars) (hslots : ∀ v ∈ pe.slots, v ≤ cs.numVars) :
    Builds a cs [] (a.alloc (.pointer pe)).2 (cs.fresh.2.registerChain pe.slots) := by
  have hchain : StoreStep cs.fresh.2 (cs.fresh.2.registerChain pe.slots) := by
    refine .chain _ _ (fun v hv => by simpa [Nat.lt_succ_iff] using hslots v hv) fun v hv => ?_
    rw [hhead, Option.mem_some_iff] at hv
    rw [← hv, fresh_env, read_push_ptr]
    exact read_of_size_le (Nat.le_refl _)
  have hstore := (StoreStep.fresh cs).grows.trans hchain.grows
  refine ⟨extends_alloc _ _, hstore, ?_, fun _ h => nomatch h⟩
  refine (h.mono hstore.extends.numVars_le).alloc fun pe' hpe v hv => ?_
  cases hpe
  have := hchain.extends.numVars_le
  simp only [numVars_fresh] at this
  exact Nat.lt_of_le_of_lt (hslots v hv) (by omega)

theorem builds_addressOf {cs : ConstraintStore} (h : a.SlotsBelow cs.numVars) (id : Nat) :
    Builds a cs [] (a.addressOf cs id).2.1 (a.addressOf cs id).2.2 := by
  unfold addressOf
  dsimp only
  split
  · next p hp =>
    exact builds_allocFresh h rfl fun v hv => by
      rcases List.mem_cons.1 hv with rfl | hv
      · exact Nat.le_refl _
      · exact Nat.le_of_lt (h id p (pointer?_eq_some.2 hp) v hv)
  · exact builds_allocFresh h rfl fun v hv => by simp_all
  · exact builds_allocFresh h rfl fun v hv => by simp_all

theorem dereference_ok {n : Nat} {r : Option Nat × Arena} (h : a.SlotsBelow n)
    (hd : a.dereference id = .ok r) : a.Extends r.2 ∧ r.2.SlotsBelow n := by
  unfold dereference at hd
  split at hd
  · cases hd
  · next p hp =>
    split at hd
    · cases hd
      exact ⟨Extends.refl a, h⟩
    · cases hd
      exact ⟨Extends.refl a, h⟩
    · next v rest hslots =>
      cases hd
      refine ⟨extends_alloc _ _, h.alloc fun pe hpe w hw => ?_⟩
      cases hpe
      exact h id p (pointer?_eq_some.2 hp) w (by rw [hslots]; exact List.mem_cons_of_mem _ hw)
  · cases hd
    exact ⟨Extends.refl a, h⟩

theorem dereference_error {e : Error} (hd : a.dereference id = .error e) : e = .derefFunction id := by
  unfold dereference at hd
  split at hd
  · cases hd; rfl
  · split at hd <;> cases hd
  · cases hd

end Arena

end CheckedPointers
