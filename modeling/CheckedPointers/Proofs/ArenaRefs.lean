import CheckedPointers.Proofs.ArenaSteps

/-!
# Entries refer to entries of the arena

An entry refers to other entries: a pointer to the function it points to and to the call-site
arguments recorded on it, a function to the alternatives of its returns and parameters
(`Entry.refs`). An arena whose entries refer only to its own entries (`Arena.RefsBelow`) keeps
that when it builds, dereferences or takes an address: each appends entries over entries it
holds, and the arena it leaves is the old one with entries appended (`Arena.Appended`). Recording
a call-site argument keeps it too, for an argument the arena holds.
-/

namespace CheckedPointers

namespace Entry

/-- The entries an entry refers to: its function, returns and parameters, and the call-site
arguments recorded on it. -/
def refs : Entry → List Nat
  | .pointer p => p.function.toList ++ p.arguments.toList
  | .function f => f.returns.toList ++ f.params.flatMap SortedSet.toList

end Entry

namespace Arena

variable {a a' a'' : Arena} {id : Nat} {e : Entry} {pe : PointerEntry} {fe : FunctionEntry}

/-- Every entry refers only to entries of the arena, and what it embeds (its function, its returns
and its parameters) only to entries allocated before it. -/
structure RefsBelow (a : Arena) : Prop where
  inArena : ∀ id e, a.get? id = some e → ∀ x ∈ e.refs, x < a.size
  back : ∀ id, ∀ x ∈ a.children id, x < id

theorem RefsBelow.function (h : a.RefsBelow) (hf : a.function? id = some fe) :
    (∀ x ∈ fe.returns.toList, x < a.size) ∧ ∀ s ∈ fe.params, ∀ x ∈ s.toList, x < a.size :=
  ⟨fun x hx => h.inArena id _ (function?_eq_some.1 hf) x (List.mem_append_left _ hx),
    fun s hs x hx => h.inArena id _ (function?_eq_some.1 hf) x
      (List.mem_append_right _ (List.mem_flatMap.2 ⟨s, hs, hx⟩))⟩

theorem RefsBelow.pointer (h : a.RefsBelow) (hp : a.pointer? id = some pe) :
    (∀ x ∈ pe.function, x < a.size) ∧ ∀ x ∈ pe.arguments.toList, x < a.size :=
  ⟨fun x hx => h.inArena id _ (pointer?_eq_some.1 hp) x
      (List.mem_append_left _ (Option.mem_toList.2 hx)),
    fun x hx => h.inArena id _ (pointer?_eq_some.1 hp) x (List.mem_append_right _ hx)⟩

theorem refsBelow_empty : Arena.empty.RefsBelow :=
  ⟨(fun _ _ h => nomatch h), fun _ _ hx => by simp [children, get?, empty] at hx⟩

/-! ## What an entry embeds -/

theorem mem_refs_of_mem_children (h : a.get? id = some e) {x : Nat} (hx : x ∈ a.children id) :
    x ∈ e.refs := by
  unfold children at hx
  rw [h] at hx
  cases e with
  | pointer p => exact List.mem_append_left _ hx
  | function f => exact hx

theorem children_eq_of_shape {a' : Arena} (h : (a.get? id).map Entry.shape = (a'.get? id).map Entry.shape) :
    a.children id = a'.children id := by
  unfold children
  cases ha : a.get? id with
  | none =>
    rw [ha] at h
    cases ha' : a'.get? id with
    | none => rfl
    | some e' => rw [ha'] at h; cases h
  | some e =>
    rw [ha] at h
    cases ha' : a'.get? id with
    | none => rw [ha'] at h; cases h
    | some e' =>
      rw [ha'] at h
      cases e with
      | pointer p =>
        obtain ⟨p', rfl, -, hfun⟩ := Entry.shape_eq_pointer (Option.some.inj h).symm
        exact congrArg Option.toList hfun.symm
      | function f => rw [Entry.shape_eq_function (Option.some.inj h).symm]

theorem children_recordArgument (a : Arena) (param arg id : Nat) :
    (a.recordArgument param arg).children id = a.children id :=
  children_eq_of_shape (shape_recordArgument a param arg id)

theorem mem_children_alloc {x : Nat} (hx : x ∈ (a.alloc e).2.children id) :
    (id = a.size ∧ x ∈ e.refs) ∨ x ∈ a.children id := by
  by_cases hid : id = a.size
  · subst hid
    exact .inl ⟨rfl, mem_refs_of_mem_children (by rw [get?_alloc, if_pos rfl]) hx⟩
  · refine .inr ?_
    have hget : (a.alloc e).2.get? id = a.get? id := by rw [get?_alloc, if_neg hid]
    rwa [children, hget, ← children] at hx

/-- The arena `a'` is `a` with entries appended. -/
def Appends (a a' : Arena) : Prop := a.entries.toList <+: a'.entries.toList

theorem Appends.refl (a : Arena) : a.Appends a := List.prefix_refl _

theorem Appends.trans (h : a.Appends a') (h' : a'.Appends a'') : a.Appends a'' :=
  List.IsPrefix.trans h h'

theorem Appends.size_le (h : a.Appends a') : a.size ≤ a'.size := by
  simpa [size] using h.length_le

theorem Appends.get?_eq (h : a.Appends a') (hid : id < a.size) : a'.get? id = a.get? id := by
  have hid' : id < a.entries.toList.length := by simpa [size] using hid
  unfold get?
  rw [← Array.getElem?_toList, ← Array.getElem?_toList, List.prefix_iff_getElem?.1 h id hid',
    List.getElem?_eq_getElem hid']

theorem appends_alloc (a : Arena) (e : Entry) : a.Appends (a.alloc e).2 := by
  show a.entries.toList <+: (a.entries.push e).toList
  rw [Array.toList_push]
  exact List.prefix_append _ _

theorem RefsBelow.alloc (h : a.RefsBelow) (he : ∀ x ∈ e.refs, x < a.size) : (a.alloc e).2.RefsBelow := by
  constructor
  · intro id e' he' x hx
    rw [size_alloc]
    rw [get?_alloc] at he'
    split at he'
    · cases he'
      exact Nat.lt_succ_of_lt (he x hx)
    · exact Nat.lt_succ_of_lt (h.inArena id e' he' x hx)
  · -- the new entry takes the next number, above everything it refers to
    intro id x hx
    rcases mem_children_alloc hx with ⟨rfl, hnew⟩ | hold
    · exact he x hnew
    · exact h.back id x hold

theorem RefsBelow.recordArgument (h : a.RefsBelow) {param arg : Nat} (harg : arg < a.size) :
    (a.recordArgument param arg).RefsBelow := by
  refine ⟨fun id e he x hx => ?_, fun id x hx => h.back id x (by rwa [children_recordArgument] at hx)⟩
  rw [size_recordArgument]
  unfold Arena.recordArgument at he
  split at he
  · next p hp =>
    simp only [get?, Array.set!_eq_setIfInBounds, Array.getElem?_setIfInBounds] at he
    by_cases hid : param = id
    · -- the argument joins the others recorded at the parameter
      subst hid
      have hlt : param < a.entries.size := lt_size_of_get? hp
      simp only [hlt, if_true, Option.some.injEq] at he
      subst he
      rcases List.mem_append.1 hx with hx | hx
      · exact h.inArena param _ hp x (List.mem_append_left _ hx)
      · rcases SortedSet.mem_insert hx with rfl | hx
        · exact harg
        · exact h.inArena param _ hp x (List.mem_append_right _ hx)
    · simp only [hid, if_false] at he
      exact h.inArena id e he x hx
  · exact h.inArena id e he x hx

/-! ## Building appends -/

/-- What building appended to `a`, ending at `a'` with the entries `ids`: `a'` is `a` with entries
appended, it keeps every reference in the arena, and it holds the entries built. -/
structure Appended (a : Arena) (ids : List Nat) (a' : Arena) : Prop where
  appends : a.Appends a'
  refs : a.RefsBelow → a'.RefsBelow
  lt_size : ∀ id ∈ ids, id < a'.size

theorem Appended.refl (a : Arena) : Appended a [] a :=
  ⟨Appends.refl a, fun h => h, fun _ h => nomatch h⟩

theorem Appended.trans {ids ids' : List Nat} (h : Appended a ids a') (h' : Appended a' ids' a'') :
    Appended a (ids ++ ids') a'' := by
  refine ⟨h.appends.trans h'.appends, fun hr => h'.refs (h.refs hr), fun id hid => ?_⟩
  rcases List.mem_append.1 hid with hid | hid
  · exact Nat.lt_of_lt_of_le (h.lt_size id hid) h'.appends.size_le
  · exact h'.lt_size id hid

theorem Appended.alloc {ids : List Nat} (h : Appended a ids a') (he : ∀ x ∈ e.refs, x < a'.size) :
    Appended a [a'.size] (a'.alloc e).2 :=
  ⟨h.appends.trans (appends_alloc a' e), fun hr => (h.refs hr).alloc he, fun id hid => by
    rw [List.mem_singleton.1 hid, size_alloc]
    exact Nat.lt_succ_self _⟩

mutual

theorem appended_build (a : Arena) (cs : ConstraintStore) (name : String) :
    ∀ (ty : TypeShape) (ann : Annotations),
      Appended a [(a.build cs name ty ann).1] (a.build cs name ty ann).2.1
  | ⟨base, [], some f⟩, ann => by
    rw [build.eq_1]
    exact appended_buildFunction a cs name f ann
  | ⟨base, [], none⟩, ann => by
    rw [build_pointer a cs name base [] none ann (.inr rfl)]
    exact (Appended.refl a).alloc fun x hx => by simp [Entry.refs, buildEmbedded] at hx
  | ⟨base, l :: ls, function⟩, ann => by
    rw [build_pointer a cs name base (l :: ls) function ann (.inl (List.cons_ne_nil l ls))]
    dsimp only
    have he := appended_buildEmbedded a ((List.foldl levelStep ([], cs) (l :: ls)).2.registerChain
      (List.foldl levelStep ([], cs) (l :: ls)).1) name function
    refine he.alloc fun x hx => ?_
    simp only [Entry.refs, SortedSet.toList_empty, List.append_nil] at hx
    exact he.lt_size x hx

theorem appended_buildEmbedded (a : Arena) (cs : ConstraintStore) (name : String) :
    ∀ f : Option FunctionShape, Appended a (a.buildEmbedded cs name f).1.toList
      (a.buildEmbedded cs name f).2.1
  | none => by
    rw [buildEmbedded]
    exact Appended.refl a
  | some f => by
    rw [buildEmbedded_some]
    exact appended_buildFunction a cs name f {}

theorem appended_buildFunction (a : Arena) (cs : ConstraintStore) (name : String) :
    ∀ (f : FunctionShape) (ann : Annotations), Appended a [(a.buildFunction cs name f ann).1]
      (a.buildFunction cs name f ann).2.1
  | ⟨ret, params, hasPrototype, variadic⟩, ann => by
    rw [buildFunction_eq]
    dsimp only
    have hr := appended_build a cs name ret { itype := ann.itype, boundsInterop := ann.boundsInterop }
    have hb := hr.trans (appended_buildParams _
      (a.build cs name ret { itype := ann.itype, boundsInterop := ann.boundsInterop }).2.2 params)
    -- the function refers to its return and parameters, built before it
    refine hb.alloc fun x hx => hb.lt_size x ?_
    simp only [Entry.refs, SortedSet.toList_singleton, List.mem_append, List.mem_singleton,
      List.mem_flatMap, List.mem_map] at hx
    rcases hx with rfl | ⟨s, ⟨y, hy, rfl⟩, hx⟩
    · exact List.mem_append_left _ (List.mem_singleton_self _)
    · rw [SortedSet.toList_singleton, List.mem_singleton] at hx
      subst hx
      exact List.mem_append_right _ hy

theorem appended_buildParams (a : Arena) (cs : ConstraintStore) :
    ∀ ps : List ParamShape, Appended a (a.buildParams cs ps).1 (a.buildParams cs ps).2.1
  | [] => by
    rw [buildParams]
    exact Appended.refl a
  | ⟨pname, ty, key, itype⟩ :: rest => by
    rw [buildParams_cons]
    dsimp only
    exact (appended_build a cs pname ty { itype := itype }).trans (appended_buildParams _ _ rest)

end

theorem appended_dereference (h : a.RefsBelow) {r : Option Nat × Arena} (hd : a.dereference id = .ok r) :
    Appended a r.1.toList r.2 := by
  unfold dereference at hd
  split at hd
  · cases hd
  · next p hp =>
    have hfun := (h.pointer (pointer?_eq_some.2 hp)).1
    split at hd
    · cases hd
      exact Appended.refl a
    · -- one slot left: the embedded function
      cases hd
      exact ⟨Appends.refl a, fun hr => hr, fun x hx => hfun x (Option.mem_toList.1 hx)⟩
    · cases hd
      refine (Appended.refl a).alloc fun x hx => ?_
      simp only [Entry.refs, SortedSet.toList_empty, List.append_nil] at hx
      exact hfun x (Option.mem_toList.1 hx)
  · cases hd
    exact Appended.refl a

theorem appended_addressOf (h : a.RefsBelow) (cs : ConstraintStore) (id : Nat) :
    Appended a [(a.addressOf cs id).1] (a.addressOf cs id).2.1 := by
  unfold addressOf
  dsimp only
  refine (Appended.refl a).alloc fun x hx => ?_
  split at hx
  · next p hp =>
    simp only [Entry.refs, SortedSet.toList_empty, List.append_nil] at hx
    exact (h.pointer (pointer?_eq_some.2 hp)).1 x (Option.mem_toList.1 hx)
  · next f hf =>
    simp only [Entry.refs, SortedSet.toList_empty, List.append_nil, Option.toList_some,
      List.mem_singleton] at hx
    subst hx
    exact lt_size_of_get? hf
  · simp [Entry.refs] at hx

end Arena

end CheckedPointers
