import CheckedPointers.Proofs.ArenaRefs
import CheckedPointers.Proofs.Tables

/-!
# Every session keeps its entries' references in the arena

In every arena a session holds, each entry refers only to entries of the arena
(`Arena.RefsBelow`). Building, dereferencing and taking an address append entries over entries the
arena holds; a call records as argument an entry its argument evaluated to, which the arena holds
(`Program.YieldsBelow`); everything else leaves the arena alone. So every operation keeps the
property together with the program's invariants (`Program.KeepsRefs`), and so does every step of a
session (`Session.Reachable.refsOk`).
-/

namespace CheckedPointers

open ConstraintStore

namespace Program

variable {p p' : Program} {n : Nat}

/-- The invariants under which an operation keeps every reference in the arena: the program is
well formed, its global variables and functions name chained entries, and its entries refer to
entries of the arena. -/
structure RefsOk (p : Program) : Prop where
  wf : p.Wf
  names : p.NamesChained
  refs : p.arena.RefsBelow

theorem RefsOk.grow (hp : p.RefsOk) (hw : p'.Wf) (he : p.Evolves p') (ht : SameTables p p')
    (ha : p'.arena.RefsBelow) : p'.RefsOk :=
  ⟨hw, hp.names.growsOnly (he.growsOnly ht), ha⟩

/-- From a program with the invariants and at least `n` entries, the operation keeps the invariants
and only grows the arena, whatever its outcome. -/
def KeepsRefs {α : Type} (n : Nat) (m : ProgramM α) : Prop :=
  ∀ p, p.RefsOk → n ≤ p.arena.size →
    (stateOf (m.run p)).RefsOk ∧ p.arena.size ≤ (stateOf (m.run p)).arena.size

/-- From a program with the invariants, every entry the operation's result names (through `ids`) is
an entry of the arena it leaves. -/
def YieldsBelow {α : Type} (ids : α → List Nat) (m : ProgramM α) : Prop :=
  ∀ p, p.RefsOk → ∀ a p', m.run p = .ok a p' → ∀ x ∈ ids a, x < p'.arena.size

section KeepsRefs

variable {α β : Type}

theorem keepsRefs_of {m : ProgramM α} (hk : Keeps m) (ht : KeepsTables m)
    (ha : ∀ p, p.RefsOk → (stateOf (m.run p)).arena.RefsBelow) : KeepsRefs n m := by
  intro p hp _
  have he := (hk p hp.wf).2
  exact ⟨hp.grow (hk p hp.wf).1 he (ht p) (ha p hp), he.arena.size_le⟩

theorem KeepsRefs.run_ok {m : ProgramM α} {a : α} (h : KeepsRefs n m) (hp : p.RefsOk) (hn : n ≤ p.arena.size)
    (hr : m.run p = .ok a p') : p'.RefsOk ∧ p.arena.size ≤ p'.arena.size := by
  have h' := h p hp hn
  rw [hr] at h'
  exact h'

theorem keepsRefs_pure (a : α) : KeepsRefs n (pure a : ProgramM α) := fun _ hp _ => ⟨hp, Nat.le_refl _⟩

theorem keepsRefs_throw (e : Error) : KeepsRefs n (throw e : ProgramM α) :=
  fun _ hp _ => ⟨hp, Nat.le_refl _⟩

theorem keepsRefs_get : KeepsRefs n (get : ProgramM Program) := fun _ hp _ => ⟨hp, Nat.le_refl _⟩

/-- A change of a program with the invariants and at least `n` entries that keeps the invariants
and only grows the arena. -/
def PreservesRefs (n : Nat) (f : Program → Program) : Prop :=
  ∀ p, p.RefsOk → n ≤ p.arena.size → (f p).RefsOk ∧ p.arena.size ≤ (f p).arena.size

theorem PreservesRefs.foldl {l : List β} {g : Program → β → Program}
    (hg : ∀ x ∈ l, PreservesRefs n fun q => g q x) : PreservesRefs n fun q => l.foldl g q := by
  induction l with
  | nil => exact fun q hq _ => ⟨hq, Nat.le_refl _⟩
  | cons x xs ih =>
    intro q hq hn
    obtain ⟨hq1, hs1⟩ := hg x List.mem_cons_self q hq hn
    obtain ⟨hq2, hs2⟩ := ih (fun y hy => hg y (List.mem_cons_of_mem x hy)) _ hq1 (Nat.le_trans hn hs1)
    exact ⟨hq2, Nat.le_trans hs1 hs2⟩

theorem keepsRefs_modify {f : Program → Program} (hf : PreservesRefs n f) :
    KeepsRefs n (modify f : ProgramM Unit) := hf

theorem KeepsRefs.bind {x : ProgramM α} {f : α → ProgramM β} (hx : KeepsRefs n x)
    (hf : ∀ a, KeepsRefs n (f a)) : KeepsRefs n (x >>= f) := by
  intro p hp hn
  have h := hx p hp hn
  rw [run_bind]
  cases hr : x.run p with
  | ok a s =>
    rw [hr] at h
    have h' := hf a s h.1 (Nat.le_trans hn h.2)
    exact ⟨h'.1, Nat.le_trans h.2 h'.2⟩
  | error e s =>
    rw [hr] at h
    exact h

theorem KeepsRefs.bind_below {x : ProgramM α} {f : α → ProgramM β} {ids : α → List Nat}
    (hx : KeepsRefs n x) (hy : YieldsBelow ids x)
    (hf : ∀ a n', n ≤ n' → (∀ y ∈ ids a, y < n') → KeepsRefs n' (f a)) : KeepsRefs n (x >>= f) := by
  intro p hp hn
  have h := hx p hp hn
  rw [run_bind]
  cases hr : x.run p with
  | ok a s =>
    rw [hr] at h
    have h' := hf a s.arena.size (Nat.le_trans hn h.2) (hy p hp a s hr) s h.1 (Nat.le_refl _)
    exact ⟨h'.1, Nat.le_trans h.2 h'.2⟩
  | error e s =>
    rw [hr] at h
    exact h

theorem keepsRefs_get_bind {f : Program → ProgramM β}
    (hf : ∀ p, p.RefsOk → n ≤ p.arena.size →
      (stateOf ((f p).run p)).RefsOk ∧ p.arena.size ≤ (stateOf ((f p).run p)).arena.size) :
    KeepsRefs n (get >>= f) := by
  intro p hp hn
  rw [run_bind, run_get]
  exact hf p hp hn

theorem keepsRefs_forIn {l : List α} {init : β} {f : α → β → ProgramM (ForInStep β)}
    (hf : ∀ a ∈ l, ∀ b, KeepsRefs n (f a b)) : KeepsRefs n (forIn l init f) := by
  induction l generalizing init with
  | nil => exact keepsRefs_pure init
  | cons x xs ih =>
    rw [List.forIn_cons]
    refine (hf x List.mem_cons_self init).bind fun r => ?_
    cases r with
    | done b => exact keepsRefs_pure b
    | yield b => exact ih fun a ha => hf a (List.mem_cons_of_mem x ha)

theorem keepsRefs_foldlM {l : List α} {init : β} {f : β → α → ProgramM β}
    (hf : ∀ b a, KeepsRefs n (f b a)) : KeepsRefs n (l.foldlM f init) := by
  induction l generalizing init with
  | nil => exact keepsRefs_pure init
  | cons x xs ih =>
    rw [List.foldlM_cons]
    exact (hf init x).bind fun b => ih

theorem keepsRefs_ite {c : Prop} [Decidable c] {x y : ProgramM α} (hx : KeepsRefs n x)
    (hy : KeepsRefs n y) : KeepsRefs n (if c then x else y) := by
  split
  · exact hx
  · exact hy

theorem YieldsBelow.bind {x : ProgramM α} {f : α → ProgramM β} {ids : β → List Nat}
    (hx : KeepsRefs 0 x) (hf : ∀ a, YieldsBelow ids (f a)) : YieldsBelow ids (x >>= f) := by
  intro p hp b p' h
  rw [run_bind] at h
  cases hr : x.run p with
  | ok a s =>
    rw [hr] at h
    have hs := (hx p hp (Nat.zero_le _)).1
    rw [hr] at hs
    exact hf a s hs b p' h
  | error e s =>
    rw [hr] at h
    cases h

theorem yieldsBelow_get_bind {f : Program → ProgramM β} {ids : β → List Nat}
    (hf : ∀ p, p.RefsOk → ∀ b p', (f p).run p = .ok b p' → ∀ x ∈ ids b, x < p'.arena.size) :
    YieldsBelow ids (get >>= f) := by
  intro p hp b p' h
  rw [run_bind, run_get] at h
  exact hf p hp b p' h

theorem yieldsBelow_pure_empty : YieldsBelow SortedSet.toList (pure SortedSet.empty : ProgramM (SortedSet Nat)) :=
  fun _ _ _ _ h x hx => by
    cases h
    exact absurd hx (List.not_mem_nil)

theorem run_bind_ok {x : ProgramM α} {f : α → ProgramM β} {b : β} (h : (x >>= f).run p = .ok b p') :
    ∃ a q, x.run p = .ok a q ∧ (f a).run q = .ok b p' := by
  rw [run_bind] at h
  cases hr : x.run p with
  | ok a q =>
    rw [hr] at h
    exact ⟨a, q, rfl, h⟩
  | error e q =>
    rw [hr] at h
    cases h

theorem YieldsBelow.map {x : ProgramM α} {ids : α → List Nat} {g : α → β} {ids' : β → List Nat}
    (hx : YieldsBelow ids x) (hg : ∀ a, ∀ y ∈ ids' (g a), y ∈ ids a) :
    YieldsBelow ids' (x >>= fun a => pure (g a)) := by
  intro p hp b p' h y hy
  obtain ⟨a, q, h1, h2⟩ := run_bind_ok h
  cases h2
  exact hx p hp a _ h1 y (hg a y hy)

end KeepsRefs

/-! ## Looking up declarations -/

theorem synthesize_cases (def_ : DeclKey) (p : Program) :
    (∃ id, p.synthesized.find? def_.uniqueKey = some id ∧ (synthesize def_).run p = .ok id p) ∨
      (∃ e, (synthesize def_).run p = .error e p) ∨
      ∃ f, p.synthesized.find? def_.uniqueKey = none ∧ p.functions.find? def_ = some f ∧
        (synthesize def_).run p =
          .ok (p.buildEntry def_.name f.ty { itype := f.itype, boundsInterop := f.boundsInterop }).1
            { forceWildOpt f.forcedWild
                (p.buildEntry def_.name f.ty { itype := f.itype, boundsInterop := f.boundsInterop }).1
                (some def_.loc)
                (p.buildEntry def_.name f.ty { itype := f.itype, boundsInterop := f.boundsInterop }).2 with
              synthesized := p.synthesized.insert def_.uniqueKey
                (p.buildEntry def_.name f.ty { itype := f.itype, boundsInterop := f.boundsInterop }).1 } := by
  unfold synthesize
  simp only [run_bind, run_get]
  split
  · next id hid => exact .inl ⟨id, hid, rfl⟩
  · next hnone =>
    split
    · exact .inr (.inl ⟨_, rfl⟩)
    · next f hf =>
      refine .inr (.inr ⟨f, hnone, hf, ?_⟩)
      cases f.forcedWild <;> rfl

theorem arena_forceWildOpt (o : Option String) (id : Nat) (loc : Option SourceLoc) (p : Program) :
    (forceWildOpt o id loc p).arena = p.arena := by
  cases o <;> rfl

theorem keepsRefs_synthesize (def_ : DeclKey) : KeepsRefs n (synthesize def_) := by
  refine keepsRefs_of (keeps_synthesize def_) (keepsTables_synthesize def_) fun p hp => ?_
  rcases synthesize_cases def_ p with ⟨id, -, h⟩ | ⟨e, h⟩ | ⟨f, -, -, h⟩ <;> rw [h]
  · exact hp.refs
  · exact hp.refs
  · -- only the declaration's entries are new, built from the definition's type
    show (forceWildOpt _ _ _ _).arena.RefsBelow
    rw [arena_forceWildOpt]
    exact (Arena.appended_build p.arena p.store _ _ _).refs hp.refs

theorem yieldsBelow_synthesize (def_ : DeclKey) : YieldsBelow (fun id => [id]) (synthesize def_) := by
  intro p hp id p' h x hx
  rw [List.mem_singleton] at hx
  subst hx
  rcases synthesize_cases def_ p with ⟨id', hid, h'⟩ | ⟨e, h'⟩ | ⟨f, -, -, h'⟩ <;> rw [h'] at h <;> cases h
  · -- made before, and chained since
    obtain ⟨k, hk, -⟩ := SortedMap.mem_of_find? hid
    exact (hp.wf.synthesized _ hk).lt_size
  · show _ < (forceWildOpt _ _ _ _).arena.size
    rw [arena_forceWildOpt]
    exact (Arena.appended_build p.arena p.store _ _ _).lt_size _ (List.mem_singleton_self _)

theorem lt_size_of_recorded (hp : p.RefsOk) (key : DeclKey) :
    ∀ x ∈ ((p.entriesAt.find? key).getD SortedSet.empty).toList, x < p.arena.size := by
  intro x hx
  cases hk : p.entriesAt.find? key with
  | none =>
    rw [hk] at hx
    exact absurd hx List.not_mem_nil
  | some s =>
    rw [hk] at hx
    obtain ⟨k, hmem, -⟩ := SortedMap.mem_of_find? hk
    exact (hp.wf.recorded _ hmem x hx).lt_size

theorem keepsRefs_outOfContextFunction (key : DeclKey) : KeepsRefs n (outOfContextFunction key) := by
  unfold outOfContextFunction
  refine keepsRefs_get_bind fun p hp hn => ?_
  split
  · exact keepsRefs_throw _ p hp hn
  · split
    · exact keepsRefs_pure _ p hp hn
    · split
      · exact keepsRefs_pure _ p hp hn
      · exact keepsRefs_synthesize key p hp hn

theorem yieldsBelow_outOfContextFunction (key : DeclKey) :
    YieldsBelow (fun id => [id]) (outOfContextFunction key) := by
  unfold outOfContextFunction
  refine yieldsBelow_get_bind fun p hp id p' h x hx => ?_
  rw [List.mem_singleton] at hx
  subst hx
  split at h
  · cases h
  · next f hf =>
    split at h
    · -- a declaration is seen as itself
      cases h
      obtain ⟨k, hk, -⟩ := SortedMap.mem_of_find? hf
      exact (hp.names.functions _ hk).lt_size
    · split at h
      · next d hd =>
        cases h
        obtain ⟨k, -, hk⟩ := Option.bind_eq_some_iff.1 hd
        obtain ⟨k', hk', -⟩ := SortedMap.mem_of_find? hk
        exact (hp.names.functions _ hk').lt_size
      · exact yieldsBelow_synthesize key p hp _ _ h _ (List.mem_singleton_self _)

theorem keepsRefs_declarationOf (key : DeclKey) : KeepsRefs n (declarationOf key) :=
  keepsRefs_outOfContextFunction key

theorem yieldsBelow_declarationOf (key : DeclKey) : YieldsBelow (fun id => [id]) (declarationOf key) :=
  yieldsBelow_outOfContextFunction key

theorem keepsRefs_paramOf (function : DeclKey) (index : Nat) (inContext : Bool) :
    KeepsRefs n (paramOf function index inContext) := by
  unfold paramOf
  extract_lets -underBinder jp
  have hjp : ∀ fv, KeepsRefs n (jp fv) := by
    intro fv
    unfold jp
    refine keepsRefs_get_bind fun p hp hn => ?_
    split
    · exact keepsRefs_throw _ p hp hn
    · split
      · exact keepsRefs_pure _ p hp hn
      · exact keepsRefs_throw _ p hp hn
  clear_value jp
  split
  · refine keepsRefs_get_bind fun p hp hn => ?_
    split
    · exact ((keepsRefs_pure _).bind hjp) p hp hn
    · exact ((keepsRefs_throw _).bind hjp) p hp hn
  · exact (keepsRefs_outOfContextFunction function).bind hjp

theorem yieldsBelow_paramOf (function : DeclKey) (index : Nat) (inContext : Bool) :
    YieldsBelow SortedSet.toList (paramOf function index inContext) := by
  unfold paramOf
  extract_lets -underBinder jp
  have hjp : ∀ fv, YieldsBelow SortedSet.toList (jp fv) := by
    intro fv
    unfold jp
    refine yieldsBelow_get_bind fun p hp s p' h => ?_
    split at h
    · cases h
    · next f hf =>
      split at h
      · next s' hs =>
        cases h
        exact (hp.refs.function hf).2 _ (List.mem_of_getElem? hs)
      · cases h
  clear_value jp
  split
  · refine yieldsBelow_get_bind fun p hp s p' h => ?_
    split at h
    · exact YieldsBelow.bind (keepsRefs_pure _) hjp p hp s p' h
    · exact YieldsBelow.bind (keepsRefs_throw _) hjp p hp s p' h
  · exact YieldsBelow.bind (keepsRefs_outOfContextFunction function) hjp

theorem keepsRefs_getVariable (key : DeclKey) (inContext : Bool) :
    KeepsRefs n (getVariable key inContext) := by
  unfold getVariable
  refine keepsRefs_get_bind fun p hp hn => ?_
  dsimp only
  split
  · exact keepsRefs_pure _ p hp hn
  · split
    · exact ((keepsRefs_outOfContextFunction key).bind fun _ => keepsRefs_pure _) p hp hn
    · split
      · exact keepsRefs_paramOf _ _ _ p hp hn
      · exact keepsRefs_pure _ p hp hn

theorem yieldsBelow_getVariable (key : DeclKey) (inContext : Bool) :
    YieldsBelow SortedSet.toList (getVariable key inContext) := by
  unfold getVariable
  refine yieldsBelow_get_bind fun p hp s p' h => ?_
  dsimp only at h
  split at h
  · cases h
    exact lt_size_of_recorded hp key
  · split at h
    · exact (yieldsBelow_outOfContextFunction key).map (fun c y hy => by simpa using hy) p hp s p' h
    · split at h
      · exact yieldsBelow_paramOf _ _ _ p hp s p' h
      · cases h
        exact lt_size_of_recorded hp key

/-! ## Resolving expressions -/

theorem keepsRefs_dereferenceM (c : Nat) : KeepsRefs n (dereferenceM c) := by
  refine keepsRefs_of (keeps_dereferenceM c) (keepsTables_dereferenceM c) fun p hp => ?_
  unfold dereferenceM
  rw [run_bind, run_get]
  dsimp only
  cases hd : p.arena.dereference c with
  | ok r =>
    obtain ⟨r, a⟩ := r
    exact (Arena.appended_dereference hp.refs hd).refs hp.refs
  | error e => exact hp.refs

theorem yieldsBelow_dereferenceM (c : Nat) : YieldsBelow Option.toList (dereferenceM c) := by
  unfold dereferenceM
  refine yieldsBelow_get_bind fun p hp r p' h => ?_
  split at h
  · next r' a hd =>
    cases h
    exact (Arena.appended_dereference hp.refs hd).lt_size
  · cases h

theorem keepsRefs_addressOfM (c : Nat) : KeepsRefs n (addressOfM c) :=
  keepsRefs_of (keeps_addressOfM c) (keepsTables_addressOfM c) fun p hp =>
    (Arena.appended_addressOf hp.refs p.store c).refs hp.refs

theorem yieldsBelow_addressOfM (c : Nat) : YieldsBelow (fun d => [d]) (addressOfM c) := by
  unfold addressOfM
  refine yieldsBelow_get_bind fun p hp d p' h => ?_
  cases h
  exact (Arena.appended_addressOf hp.refs p.store c).lt_size

theorem keepsRefs_stringLiteral : KeepsRefs n stringLiteral :=
  keepsRefs_of keeps_stringLiteral keepsTables_stringLiteral fun p hp =>
    hp.refs.alloc fun x hx => by simp [Entry.refs] at hx

theorem yieldsBelow_stringLiteral : YieldsBelow (fun id => [id]) stringLiteral := by
  unfold stringLiteral
  refine yieldsBelow_get_bind fun p hp id p' h => ?_
  cases h
  exact ((Arena.Appended.refl p.arena).alloc fun x hx => by simp [Entry.refs] at hx).lt_size

theorem keepsRefs_derefAll (cs : SortedSet Nat) : KeepsRefs n (derefAll cs) := by
  unfold derefAll
  refine keepsRefs_foldlM fun out c => (keepsRefs_dereferenceM c).bind fun r => ?_
  cases r with
  | some d => exact keepsRefs_pure _
  | none => exact keepsRefs_pure _

theorem yieldsBelow_foldlM {l : List α} {f : β → α → ProgramM β} {ids : β → List Nat} {init : β}
    (hk : ∀ b a, KeepsRefs 0 (f b a))
    (hf : ∀ b a p, p.RefsOk → (∀ x ∈ ids b, x < p.arena.size) →
      ∀ b' p', (f b a).run p = .ok b' p' → ∀ x ∈ ids b', x < p'.arena.size)
    (hinit : ids init = []) : YieldsBelow ids (l.foldlM f init) := by
  -- the accumulator names entries of the arena all along
  suffices h : ∀ (l : List α) (init : β) (p : Program), p.RefsOk → (∀ x ∈ ids init, x < p.arena.size) →
      ∀ b p', (l.foldlM f init).run p = .ok b p' → ∀ x ∈ ids b, x < p'.arena.size from
    fun p hp => h l init p hp (by simp [hinit])
  intro l
  induction l with
  | nil =>
    intro init p _ hi b p' h
    cases h
    exact hi
  | cons a l ih =>
    intro init p hp hi b p' h
    rw [List.foldlM_cons] at h
    obtain ⟨b₁, q, h₁, h₂⟩ := run_bind_ok h
    exact ih b₁ q ((hk init a).run_ok hp (Nat.zero_le _) h₁).1 (hf init a p hp hi b₁ q h₁) b p' h₂

theorem below_insert {out : SortedSet Nat} {d : Nat} {q : Program} (hout : ∀ x ∈ out.toList, x < p.arena.size)
    (hle : p.arena.size ≤ q.arena.size) (hd : d < q.arena.size) : ∀ x ∈ (out.insert d).toList, x < q.arena.size := by
  intro x hx
  rcases SortedSet.mem_insert hx with rfl | hx
  · exact hd
  · exact Nat.lt_of_lt_of_le (hout x hx) hle

theorem yieldsBelow_derefAll (cs : SortedSet Nat) : YieldsBelow SortedSet.toList (derefAll cs) := by
  unfold derefAll
  refine yieldsBelow_foldlM (fun out c => (keepsRefs_dereferenceM c).bind fun r => ?_)
    (fun out c p hp hout b p' h => ?_) rfl
  · cases r with
    | some d => exact keepsRefs_pure _
    | none => exact keepsRefs_pure _
  · obtain ⟨r, q, h₁, h₂⟩ := run_bind_ok h
    have hq := (keepsRefs_dereferenceM (n := 0) c).run_ok hp (Nat.zero_le _) h₁
    cases r with
    | some d =>
      cases h₂
      exact below_insert hout hq.2 (yieldsBelow_dereferenceM c p hp _ _ h₁ d (List.mem_singleton_self d))
    | none =>
      cases h₂
      exact fun x hx => Nat.lt_of_lt_of_le (hout x hx) hq.2

theorem foldl_below {γ : Type} {g : SortedSet Nat → γ → SortedSet Nat} {bound : Nat}
    (hg : ∀ out y, ∀ x ∈ (g out y).toList, x ∈ out.toList ∨ x < bound) :
    ∀ (l : List γ) (acc : SortedSet Nat), (∀ x ∈ acc.toList, x < bound) →
      ∀ x ∈ (l.foldl g acc).toList, x < bound
  | [], _, hacc => hacc
  | y :: l, acc, hacc => by
    refine foldl_below hg l (g acc y) fun x hx => ?_
    rcases hg acc y x hx with hx | hx
    · exact hacc x hx
    · exact hx

mutual

theorem keepsRefs_exprEntries : ∀ e : Expr, KeepsRefs n (exprEntries e)
  | .decl key inContext => by
    rw [exprEntries]
    exact keepsRefs_getVariable key inContext
  | .deref e => by
    rw [exprEntries]
    exact (keepsRefs_exprEntries e).bind keepsRefs_derefAll
  | .index e => by
    rw [exprEntries]
    exact (keepsRefs_exprEntries e).bind keepsRefs_derefAll
  | .addrOf e => by
    rw [exprEntries]
    exact (keepsRefs_exprEntries e).bind fun _ =>
      keepsRefs_foldlM fun _ c => (keepsRefs_addressOfM c).bind fun _ => keepsRefs_pure _
  | .call callee => by
    rw [exprEntries]
    exact (keepsRefs_exprEntries callee).bind fun _ => keepsRefs_get.bind fun _ =>
      keepsRefs_get.bind fun _ => keepsRefs_pure _
  | .stringLiteral => by
    rw [exprEntries]
    exact keepsRefs_stringLiteral.bind fun _ => keepsRefs_pure _
  | .conditional bs => by
    rw [exprEntries]
    exact keepsRefs_branchEntries bs
  | .null => by
    rw [exprEntries]
    exact keepsRefs_pure _
  | .other => by
    rw [exprEntries]
    exact keepsRefs_pure _

theorem keepsRefs_branchEntries : ∀ bs : List Expr, KeepsRefs n (branchEntries bs)
  | [] => by
    rw [branchEntries]
    exact keepsRefs_pure _
  | b :: bs => by
    rw [branchEntries]
    exact (keepsRefs_exprEntries b).bind fun _ => (keepsRefs_branchEntries bs).bind fun _ => keepsRefs_pure _

end

mutual

theorem yieldsBelow_exprEntries : ∀ e : Expr, YieldsBelow SortedSet.toList (exprEntries e)
  | .decl key inContext => by
    rw [exprEntries]
    exact yieldsBelow_getVariable key inContext
  | .deref e => by
    rw [exprEntries]
    exact YieldsBelow.bind (keepsRefs_exprEntries e) yieldsBelow_derefAll
  | .index e => by
    rw [exprEntries]
    exact YieldsBelow.bind (keepsRefs_exprEntries e) yieldsBelow_derefAll
  | .addrOf e => by
    rw [exprEntries]
    refine YieldsBelow.bind (keepsRefs_exprEntries e) fun _ => yieldsBelow_foldlM
      (fun _ c => (keepsRefs_addressOfM c).bind fun _ => keepsRefs_pure _)
      (fun out c p hp hout b p' h => ?_) rfl
    obtain ⟨d, q, h₁, h₂⟩ := run_bind_ok h
    cases h₂
    exact below_insert hout ((keepsRefs_addressOfM (n := 0) c).run_ok hp (Nat.zero_le _) h₁).2
      (yieldsBelow_addressOfM c p hp d _ h₁ d (List.mem_singleton_self d))
  | .call callee => by
    rw [exprEntries]
    refine YieldsBelow.bind (keepsRefs_exprEntries callee) fun _ => ?_
    refine yieldsBelow_get_bind fun p hp s p' h => ?_
    rw [run_bind, run_get] at h
    cases h
    -- a call evaluates to the returns of the function entries it reaches
    refine foldl_below (fun out f x hx => ?_) _ _ fun x hx => absurd hx List.not_mem_nil
    split at hx
    · next func hf =>
      rcases SortedSet.mem_union hx with hx | hx
      · exact .inl hx
      · exact .inr ((hp.refs.function hf).1 x hx)
    · exact .inl hx
  | .stringLiteral => by
    rw [exprEntries]
    exact yieldsBelow_stringLiteral.map fun id y hy => by simpa using hy
  | .conditional bs => by
    rw [exprEntries]
    exact yieldsBelow_branchEntries bs
  | .null => by
    rw [exprEntries]
    exact yieldsBelow_pure_empty
  | .other => by
    rw [exprEntries]
    exact yieldsBelow_pure_empty

theorem yieldsBelow_branchEntries : ∀ bs : List Expr, YieldsBelow SortedSet.toList (branchEntries bs)
  | [] => by
    rw [branchEntries]
    exact yieldsBelow_pure_empty
  | b :: bs => by
    rw [branchEntries]
    intro p hp u p' h
    obtain ⟨s, q, h₁, h₂⟩ := run_bind_ok h
    obtain ⟨t, q', h₃, h₄⟩ := run_bind_ok h₂
    cases h₄
    have hq := (keepsRefs_exprEntries (n := 0) b).run_ok hp (Nat.zero_le _) h₁
    have hq' := (keepsRefs_branchEntries (n := 0) bs).run_ok hq.1 (Nat.zero_le _) h₃
    intro x hx
    rcases SortedSet.mem_union hx with hx | hx
    · exact Nat.lt_of_lt_of_le (yieldsBelow_exprEntries b p hp s q h₁ x hx) hq'.2
    · exact yieldsBelow_branchEntries bs q hq.1 t _ h₃ x hx

end

/-! ## Relating entries -/

section Relating

variable {reason : String} {loc : Option SourceLoc}

theorem RefsOk.withStore (hp : p.RefsOk) {cs : ConstraintStore} (hg : p.store.Grows cs) :
    RefsOk { p with store := cs } := by
  obtain ⟨hw, he⟩ := hp.wf.withStore hg
  exact hp.grow hw he ⟨rfl, rfl, rfl, rfl, rfl, rfl, rfl⟩ hp.refs

theorem keepsRefs_updateStore {f : Arena → ConstraintStore → ConstraintStore}
    (hf : ∀ p : Program, p.Wf → p.store.Grows (f p.arena p.store)) : KeepsRefs n (updateStore f) :=
  keepsRefs_modify fun p hp _ => ⟨hp.withStore (hf p hp.wf), Nat.le_refl _⟩

theorem keepsRefs_forceSetWild (s : SortedSet Nat) (hr : reason ≠ Reason.arrayDecl) :
    KeepsRefs n (forceSetWild s reason loc) :=
  keepsRefs_updateStore fun _ hw => Arena.growsFrom_constrainSetToWild hw.slots hr s _ (Nat.le_refl _)

theorem preservesRefs_bindOne (f a : Nat) (hr : reason ≠ Reason.arrayDecl) (ha : a < n) :
    PreservesRefs n fun p => { p with store := p.arena.constrainEq p.store f a reason loc,
                                      arena := p.arena.recordArgument f a } := by
  intro p hp hn
  obtain ⟨hw, he⟩ := preserves_bindOne f a hr p hp.wf
  refine ⟨hp.grow hw he ⟨rfl, rfl, rfl, rfl, rfl, rfl, rfl⟩
    (hp.refs.recordArgument (Nat.lt_of_lt_of_le ha hn)), ?_⟩
  exact Nat.le_of_eq (Arena.size_recordArgument _ _ _).symm

theorem keepsRefs_bind (formal actual : SortedSet Nat) (hr : reason ≠ Reason.arrayDecl)
    (hact : ∀ x ∈ actual.toList, x < n) : KeepsRefs n (bind formal actual reason loc) :=
  keepsRefs_modify (PreservesRefs.foldl fun f _ => PreservesRefs.foldl fun a ha =>
    preservesRefs_bindOne f a hr (hact a ha))

theorem keepsRefs_mapM {l : List α} {f : α → ProgramM β} (hf : ∀ a, KeepsRefs n (f a)) :
    KeepsRefs n (l.mapM f) := by
  induction l with
  | nil => exact keepsRefs_pure _
  | cons x xs ih =>
    rw [List.mapM_cons]
    exact (hf x).bind fun _ => ih.bind fun _ => keepsRefs_pure _

theorem yieldsBelow_mapM {l : List α} {f : α → ProgramM β} {ids : β → List Nat}
    (hk : ∀ a, KeepsRefs 0 (f a)) (hy : ∀ a, YieldsBelow ids (f a)) :
    YieldsBelow (fun bs => bs.flatMap ids) (l.mapM f) := by
  induction l with
  | nil =>
    intro p _ bs p' h
    cases h
    exact fun x hx => absurd hx List.not_mem_nil
  | cons x xs ih =>
    rw [List.mapM_cons]
    intro p hp bs p' h
    obtain ⟨b, q, h₁, h₂⟩ := run_bind_ok h
    obtain ⟨rest, q', h₃, h₄⟩ := run_bind_ok h₂
    cases h₄
    have hq := (hk x).run_ok hp (Nat.zero_le _) h₁
    have hq' := (keepsRefs_mapM hk).run_ok hq.1 (Nat.zero_le _) h₃
    intro y hmem
    simp only [List.flatMap_cons, List.mem_append] at hmem
    rcases hmem with hmem | hmem
    · exact Nat.lt_of_lt_of_le (hy x p hp b q h₁ y hmem) hq'.2
    · exact ih q hq.1 rest _ h₃ y hmem

theorem keepsRefs_addCall (callee : Expr) (args : List Expr) (result : Option Expr) :
    KeepsRefs n (addCall callee args result loc) := by
  unfold addCall
  refine (keepsRefs_exprEntries callee).bind fun _ => keepsRefs_get.bind fun _ => ?_
  refine (keepsRefs_mapM keepsRefs_exprEntries).bind_below
    (yieldsBelow_mapM (fun e => keepsRefs_exprEntries e) yieldsBelow_exprEntries)
    fun argSets n₁ _ hargs => ?_
  dsimp only
  split <;> [refine (keepsRefs_exprEntries _).bind_below (yieldsBelow_exprEntries _)
      fun resultSet n₂ hn₂ hres => ?_;
    refine (keepsRefs_pure _).bind_below yieldsBelow_pure_empty fun resultSet n₂ hn₂ hres => ?_]
  -- what follows is the same whether or not the call's value is stored
  all_goals
    split
    · exact (keepsRefs_forIn fun s _ _ => (keepsRefs_forceSetWild s (by decide)).bind
        fun _ => keepsRefs_pure _).bind fun _ => keepsRefs_pure _
    · refine (keepsRefs_forIn fun f _ _ => keepsRefs_get.bind fun q => ?_).bind fun _ => keepsRefs_pure _
      split
      · exact keepsRefs_pure _
      · refine (keepsRefs_forIn fun x hx _ => ?_).bind fun _ =>
          (keepsRefs_bind _ _ (by decide) hres).bind fun _ => keepsRefs_pure _
        obtain ⟨a, i⟩ := x
        dsimp only
        split
        · -- each argument set is one of those evaluated before
          refine (keepsRefs_bind _ _ (by decide) fun y hy => ?_).bind fun _ => keepsRefs_pure _
          exact Nat.lt_of_lt_of_le
            (hargs y (List.mem_flatMap.2 ⟨a, List.fst_mem_of_mem_zipIdx hx, hy⟩)) hn₂
        · refine keepsRefs_get.bind fun _ => ?_
          split
          · exact (keepsRefs_forceSetWild _ (by decide)).bind fun _ => keepsRefs_pure _
          · exact keepsRefs_pure _

theorem keepsRefs_addFact (fact : Fact) : KeepsRefs n (addFact fact) := by
  cases fact with
  | declare d => exact keepsRefs_pure _
  | assign lhs rhs loc =>
    exact (keepsRefs_exprEntries lhs).bind fun l => (keepsRefs_exprEntries rhs).bind fun r =>
      keepsRefs_updateStore fun _ hw =>
        Arena.growsFrom_constrainEqSets hw.slots (by decide) l r _ (Nat.le_refl _)
  | call callee args result loc => exact keepsRefs_addCall callee args result
  | ret function e loc =>
    refine (keepsRefs_getVariable function true).bind fun funcs => (keepsRefs_exprEntries e).bind
      fun value => (keepsRefs_forIn fun f _ _ => keepsRefs_get.bind fun _ => ?_).bind
        fun _ => keepsRefs_pure _
    split
    · exact (keepsRefs_updateStore fun _ hw =>
        Arena.growsFrom_constrainEqSets hw.slots (by decide) _ _ _ (Nat.le_refl _)).bind
          fun _ => keepsRefs_pure _
    · exact keepsRefs_pure _
  | cast e src dst loc =>
    refine keepsRefs_ite ?_ (keepsRefs_pure _)
    exact (keepsRefs_exprEntries e).bind fun s => keepsRefs_forceSetWild s (by decide)
  | arithmetic e loc =>
    refine (keepsRefs_exprEntries e).bind fun s =>
      (keepsRefs_forIn fun c _ _ => keepsRefs_get_bind fun q hq _ => ?_).bind fun _ => keepsRefs_pure _
    split
    · next v hv =>
      -- the bounded slot is the outermost slot of an entry, so it is registered
      obtain ⟨pe, hpe, hhead⟩ := Option.bind_eq_some_iff.1 hv
      have hreg : v < q.store.numVars := hq.wf.slots c pe hpe v (List.mem_of_mem_head? hhead)
      exact ⟨hq.withStore (StoreStep.addGeq hreg fun h => absurd h (by decide)).grows, Nat.le_refl _⟩
    · exact ⟨hq, Nat.le_refl _⟩

end Relating

/-! ## Recording declarations -/

theorem arena_foldl_recordParam (d : DeclFact) :
    ∀ (l : List ((ParamShape × SortedSet Nat) × Nat)) (p : Program),
      (l.foldl (recordParam d) p).arena = p.arena
  | [], _ => rfl
  | x :: xs, p => by
    rw [List.foldl_cons, arena_foldl_recordParam d xs]
    unfold recordParam
    split <;> rfl

theorem arena_recordParams (d : DeclFact) (id : Nat) (p : Program) :
    (recordParams d id p).arena = p.arena := by
  unfold recordParams
  split
  · exact arena_foldl_recordParam d _ p
  · rfl

theorem arena_addFunction (p : Program) (d : DeclFact) (ann : Annotations) (forced : Option String) :
    (p.addFunction d ann forced).arena = (p.arena.build p.store d.name d.ty ann).2.1 := by
  rw [addFunction_eq]
  dsimp only
  rw [arena_recordParams]
  exact arena_forceWildOpt _ _ _ _

theorem refsBelow_addDeclaration (h : p.arena.RefsBelow) (d : DeclFact) :
    (p.addDeclaration d).arena.RefsBelow := by
  unfold Program.addDeclaration
  generalize hp0 : ({ p with files := p.files.alter d.key.file fun r => r.getD true && d.rewritable } :
    Program) = p0
  have h0 : p0.arena.RefsBelow := hp0 ▸ h
  dsimp only
  split
  · rw [arena_addFunction]
    exact (Arena.appended_build _ _ _ _ _).refs h0
  split
  · split <;> exact h0
  split
  · exact h0
  -- any other declaration with a level builds one pointer entry
  have hb := (Arena.appended_build p0.arena p0.store d.name d.ty
    { itype := d.itype, boundsInterop := d.boundsInterop, hasBody := d.isDefinition }).refs h0
  split
  · show (forceWildOpt (DeclFact.forcedReason d) _ (some d.key.loc) _).arena.RefsBelow
    rw [arena_forceWildOpt]
    exact hb
  · show (forceWildOpt (DeclFact.forcedReason d) _ (some d.key.loc) _).arena.RefsBelow
    rw [arena_forceWildOpt]
    exact hb

theorem RefsOk.addDeclaration (hp : p.RefsOk) (d : DeclFact) : (p.addDeclaration d).RefsOk :=
  ⟨(preserves_addDeclaration d p hp.wf).1, hp.names.addDeclaration hp.wf d, refsBelow_addDeclaration hp.refs d⟩

theorem keepsRefs_addFacts (facts : List Fact) : KeepsRefs n (addFacts facts) := by
  unfold addFacts
  refine (keepsRefs_modify (PreservesRefs.foldl fun f _ => ?_)).bind fun _ =>
    (keepsRefs_forIn fun f _ _ => (keepsRefs_addFact f).bind fun _ => keepsRefs_pure _).bind
      fun _ => keepsRefs_pure _
  cases f with
  | declare d =>
    exact fun q hq _ => ⟨hq.addDeclaration d, (preserves_addDeclaration d q hq.wf).2.arena.size_le⟩
  | _ => exact fun q hq _ => ⟨hq, Nat.le_refl _⟩

/-! ## Linking and reconciling

Linking and reconciling add constraints only, but for the declarations that linking and
reconciling make up. -/

theorem arena_foldl {l : List β} {f : Program → β → Program} (hf : ∀ x q, (f q x).arena = q.arena) :
    ∀ q, (l.foldl f q).arena = q.arena := by
  induction l with
  | nil => exact fun _ => rfl
  | cons x xs ih => exact fun q => (ih (f q x)).trans (hf x q)

theorem arena_pinItype (p : Program) (id : Nat) : (p.pinItype id).2.arena = p.arena := by
  unfold pinItype
  split
  · split <;> rfl
  · rfl

theorem arena_forceInnerLevels (p : Program) (id : Nat) (reason : String) :
    (p.forceInnerLevels id reason).arena = p.arena := by
  unfold forceInnerLevels
  split
  · next ptr _ =>
    have h := arena_foldl (l := ptr.slots.drop 1)
      (f := fun (q : Program) v => { q with store := (q.store.addWild v reason none).2 }) (fun _ _ => rfl) p
    dsimp only
    split <;> exact h
  · rfl
  · rfl

theorem arena_applyExternPolicy (p : Program) (id : Nat) : (p.applyExternPolicy id).arena = p.arena := by
  unfold applyExternPolicy
  split
  · rfl
  · dsimp only
    refine (arena_foldl (fun x q => ?_) _).trans (arena_foldl (fun r q => ?_) p)
    · show ((q.pinItype x).2.forceInnerLevels x Reason.externParam).arena = q.arena
      rw [arena_forceInnerLevels, arena_pinItype]
    · show (if (q.pinItype r).1 then (q.pinItype r).2.forceInnerLevels r Reason.externReturn
        else (q.pinItype r).2.forceWild r Reason.externReturn none).arena = q.arena
      split
      · rw [arena_forceInnerLevels, arena_pinItype]
      · exact arena_pinItype q r

theorem arena_equateInSequence (p : Program) (ids : List Nat) (loc : Option SourceLoc) :
    (p.equateInSequence ids loc).arena = p.arena := by
  unfold equateInSequence
  refine arena_foldl (fun x q => ?_) p
  obtain ⟨a, b⟩ := x
  rfl

theorem preservesRefs_of {f : Program → Program} (hf : Preserves f) (ht : ∀ q, SameTables q (f q))
    (ha : ∀ q, (f q).arena = q.arena) : PreservesRefs n f := by
  intro q hq _
  obtain ⟨hw, he⟩ := hf q hq.wf
  have hr : (f q).arena.RefsBelow := by
    rw [ha q]
    exact hq.refs
  exact ⟨hq.grow hw he (ht q) hr, Nat.le_of_eq (congrArg Arena.size (ha q)).symm⟩

theorem preservesRefs_equateInSequence (ids : List Nat) (loc : Option SourceLoc) :
    PreservesRefs n fun q => q.equateInSequence ids loc :=
  preservesRefs_of (preserves_equateInSequence ids loc) (sameTables_equateInSequence ids loc)
    fun q => arena_equateInSequence q ids loc

theorem keepsRefs_linkGroups : KeepsRefs n linkGroups := by
  unfold linkGroups
  refine keepsRefs_get.bind fun _ => (keepsRefs_modify (PreservesRefs.foldl fun x _ => ?_)).bind fun _ =>
    keepsRefs_get.bind fun _ => (keepsRefs_modify (PreservesRefs.foldl fun s _ => ?_)).bind
      fun _ => keepsRefs_pure _
  · obtain ⟨k, s⟩ := x
    exact preservesRefs_equateInSequence s.toList (some k.loc)
  · exact preservesRefs_equateInSequence s.toList none

theorem keepsRefs_linkFunctions : KeepsRefs n linkFunctions := by
  unfold linkFunctions
  refine keepsRefs_get.bind fun _ => ?_
  dsimp only
  split <;> [refine keepsRefs_get.bind fun _ => (keepsRefs_forIn fun def_ _ byName => ?_).bind
      fun byName => (keepsRefs_forIn fun decls _ pairs => ?_).bind fun pairs => ?_; skip]
  · refine keepsRefs_get.bind fun _ => keepsRefs_ite ?_ (keepsRefs_pure _)
    exact (keepsRefs_declarationOf def_).bind fun _ => keepsRefs_pure _
  · exact (keepsRefs_modify (preservesRefs_equateInSequence decls none)).bind fun _ => keepsRefs_pure _
  -- the extern policy, whichever way the declarations were equated
  all_goals
    refine keepsRefs_get.bind fun _ => (keepsRefs_forIn fun name _ _ => ?_).bind fun _ => keepsRefs_pure _
    exact keepsRefs_get.bind fun _ => (keepsRefs_modify (PreservesRefs.foldl fun id _ =>
      preservesRefs_of (preserves_applyExternPolicy id) (fun q => sameTables_applyExternPolicy q id)
        fun q => arena_applyExternPolicy q id)).bind fun _ => keepsRefs_pure _

theorem keepsRefs_link : KeepsRefs n link :=
  keepsRefs_linkGroups.bind fun _ => keepsRefs_linkFunctions.bind fun _ => keepsRefs_pure _

theorem keepsRefs_reconcile : KeepsRefs n reconcile := by
  unfold reconcile
  refine keepsRefs_get.bind fun _ => keepsRefs_get.bind fun _ =>
    (keepsRefs_forIn fun f _ _ => ?_).bind fun _ => keepsRefs_get.bind fun _ => keepsRefs_pure _
  refine (keepsRefs_declarationOf f.key).bind fun _ => keepsRefs_ite ?_ (keepsRefs_pure _)
  exact (keepsRefs_modify fun q hq _ =>
    ⟨hq.withStore (growsFrom_reconcilePair hq.wf.slots _ _ _ (Nat.le_refl _)), Nat.le_refl _⟩).bind
      fun _ => keepsRefs_pure _

end Program

namespace Session

open Program

variable {s s' : Session} {mayFail : Session → Prop} {o : Options}

theorem refsOk_create (o : Options) : (create o).program.RefsOk :=
  ⟨wf_create o, ⟨(fun _ h => nomatch h), fun _ h => nomatch h⟩, Arena.refsBelow_empty⟩

theorem solveStore_refsOk (hp : s.program.RefsOk) {k : Nat} (h : solveStore.run s = .ok k s') :
    s'.program.RefsOk := by
  have hg := solveStore_growsOnly hp.wf h
  unfold solveStore at h
  rw [run_bind, run_get] at h
  dsimp only at h
  split at h
  · next st cs hr =>
    cases h
    exact ⟨(hp.wf.withSolved hr).1, hp.names.growsOnly hg, hp.refs⟩
  · cases h

theorem reconcileRounds_refsOk (n : Nat) :
    ∀ (d ps : Nat) (s s' : Session) (r : Nat × Nat), s.program.RefsOk →
      (reconcileRounds n d ps).run s = .ok r s' → s'.program.RefsOk := by
  induction n with
  | zero =>
    intro d ps s s' r hp h
    cases h
    exact hp
  | succ n ih =>
    intro d ps s s' r hp h
    unfold reconcileRounds at h
    rw [run_bind, run_onProgram] at h
    obtain ⟨b, p1, hr, -⟩ := Program.reconcile_run hp.wf
    have h1 := (keepsRefs_reconcile (n := 0)).run_ok hp (Nat.zero_le _) hr
    rw [hr] at h
    dsimp only at h
    cases b with
    | false =>
      cases h
      exact h1.1
    | true =>
      rw [if_neg (by decide), run_bind] at h
      cases h2 : solveStore.run { s with program := p1 } with
      | ok more s2 =>
        rw [h2] at h
        exact ih _ _ _ _ _ (solveStore_refsOk (s := { s with program := p1 }) h1.1 h2) h
      | error e s2 =>
        rw [h2] at h
        cases h

section Table

variable [UnifyTable]

theorem solve_refsOk (hp : s.program.RefsOk) {r : SolveSummary} (h : solve.run s = .ok r s') :
    s'.program.RefsOk := by
  obtain ⟨prog, built, groups⟩ := s
  unfold solve at h
  rw [run_bind, run_get] at h
  dsimp only at h
  split at h
  · cases h
  rw [run_bind] at h
  cases h1 : solveStore.run ⟨prog, built, groups⟩ with
  | error e s1 =>
    rw [h1] at h
    cases h
  | ok k s1 =>
    rw [h1] at h
    dsimp only at h
    rw [run_bind, run_get] at h
    dsimp only at h
    rw [run_bind] at h
    have hp1 := solveStore_refsOk hp h1
    cases h2 : (reconcileRounds s1.program.options.maxReconcileRounds 0 k).run s1 with
    | error e s2 =>
      rw [h2] at h
      cases h
    | ok r2 s2 =>
      rw [h2] at h
      cases h
      exact reconcileRounds_refsOk _ _ _ _ s2 _ hp1 h2

/-- Every change keeps every reference of an entry in the arena. -/
theorem Step.refsOk (h : Step mayFail s s') (hp : s.program.RefsOk) : s'.program.RefsOk := by
  cases h with
  | build facts _ =>
    unfold Session.build
    rw [run_bind, run_onProgram]
    have h1 := (keepsRefs_addFacts (n := 0) facts) s.program hp (Nat.zero_le _)
    cases hr1 : (addFacts facts).run s.program with
    | error e p1 =>
      rw [hr1] at h1
      exact h1.1
    | ok u p1 =>
      rw [hr1] at h1
      dsimp only
      rw [run_bind, run_onProgram]
      have h2 := (keepsRefs_link (n := 0)) p1 h1.1 (Nat.zero_le _)
      cases hr2 : link.run p1 with
      | error e p2 =>
        rw [hr2] at h2
        exact h2.1
      | ok st p2 =>
        rw [hr2] at h2
        exact h2.1
  | solve =>
    rcases solve_run hp.wf with ⟨-, hr⟩ | ⟨-, r, p, hr, -⟩
    · rw [hr]
      exact hp
    · rw [hr, stateOf_ok]
      exact solve_refsOk hp hr
  | commit v scope sp hsp =>
    -- a commit installs another store in the same arena
    have hstep : Step mayFail s (s.commit sp) := .commit s v scope sp hsp
    exact ⟨hstep.wf hp.wf, hstep.namesChained hp.wf hp.names, hp.refs⟩

theorem Reachable.refsOk (h : Reachable mayFail o s) : s.program.RefsOk :=
  h.invariant (refsOk_create o) fun _ _ _ step hp => step.refsOk hp

end Table

end Session

end CheckedPointers
