import CheckedPointers.Proofs.SessionBounds

/-!
# The store's views of its constraints

Beside its live constraints the store keeps an index from each relation to its id (`idOf?`, which
deduplicates additions and finds the constraint forcing a slot to `wild`, `findWild?`) and the
owners of each slot (`constraintsOf`); it carries their agreement with the constraints
(`StoreViews`). So the index finds exactly the live constraints, and the constraints of a slot are
exactly those mentioning it, in ascending order, in every store. The operations of its interface
(`ConstraintStore.Op`) change the constraints in two ways only: an addition appends one under the
next id, with a relation no live constraint has, and every other operation keeps a sublist under
the same next id (`ConstraintStore.Op.run_cases`). A run of operations from an empty store thus
hands out the ids `0, 1, …` in turn, one per accepted addition
(`ConstraintStore.runAll_views_consistent`).

The counter the ids come from is 32 bits wide: the ids it hands out are these ids modulo `2^32`,
distinct while at most `2^32` have been issued, and a run of `2^32 + 1` additions hands out the
first one again (`ConstraintStore.issued_ids_repeat_past_u32`).
-/

namespace CheckedPointers

namespace Relation

/-- A relation between two constants, which no store keeps. -/
def IsConstConst (r : Relation) : Prop := ∃ a b, r = .eq (.const a) (.const b)

theorem mkEq_comm (l r : Atom) :
    mkEq l r = mkEq r l ∨ ∃ a b, l = .const a ∧ r = .const b := by
  cases l with
  | const a =>
    cases r with
    | const b => exact .inr ⟨a, b, rfl, rfl⟩
    | var y => exact .inl rfl
  | var x =>
    cases r with
    | const b => exact .inl rfl
    | var y =>
      left
      simp only [mkEq]
      rcases Nat.lt_trichotomy x y with hxy | rfl | hxy
      · rw [if_neg (Nat.not_lt.2 (Nat.le_of_lt hxy)), if_pos hxy]
      · rfl
      · rw [if_pos hxy, if_neg (Nat.not_lt.2 (Nat.le_of_lt hxy))]

end Relation

namespace ConstraintStore

/-- An operation of the store's interface, with its arguments. Copying a store is no operation:
the copy is the same value. -/
inductive Op where
  | fresh
  | getOrCreate (v : Nat)
  | registerChain (chain : List Nat)
  | add (r : Relation) (reason : String) (loc : Option SourceLoc)
  | addEq (lhs rhs : Atom) (reason : String) (loc : Option SourceLoc)
  | addGeq (v : Nat) (bound : Qualifier) (reason : String) (loc : Option SourceLoc)
  | addWild (v : Nat) (reason : String) (loc : Option SourceLoc)
  | remove (id : Nat)
  | removeReason (reason : String)
  | reset
  | solve

/-- Runs an operation, giving the id of the constraint it added, if it added one. The additions
that answer whether their constraint is new are additions of the relation they build; a solve the
store refuses leaves the store as it was. -/
def Op.run : Op → ConstraintStore → Option Nat × ConstraintStore
  | .fresh, cs => (none, cs.fresh.2)
  | .getOrCreate v, cs => (none, cs.getOrCreate v)
  | .registerChain ch, cs => (none, cs.registerChain ch)
  | .add r reason loc, cs => cs.add r reason loc
  | .addEq l r reason loc, cs => cs.add (Relation.mkEq l r) reason loc
  | .addGeq v q reason loc, cs => cs.add (.geq v q) reason loc
  | .addWild v reason loc, cs => cs.add (.geq v .wild) reason loc
  | .remove id, cs => (none, (cs.remove id).2)
  | .removeReason reason, cs => (none, (cs.removeReason reason).2)
  | .reset, cs => (none, cs.reset)
  | .solve, cs =>
    match cs.solve with
    | .ok (_, cs') => (none, cs')
    | .error _ => (none, cs)

/-- Runs operations in order, giving the ids of the constraints they added, in order. -/
def Op.runAll : List Op → ConstraintStore → List Nat × ConstraintStore
  | [], cs => ([], cs)
  | op :: ops, cs =>
    let rest := runAll ops (op.run cs).2
    ((op.run cs).1.toList ++ rest.1, rest.2)

variable {cs : ConstraintStore} {r : Relation} {reason : String} {loc : Option SourceLoc}

theorem add_spec (cs : ConstraintStore) (r : Relation) (reason : String) (loc : Option SourceLoc) :
    (cs.add r reason loc = (none, cs) ∧ (r.IsConstConst ∨ ∃ e ∈ cs.entries, e.2.relation = r)) ∨
      ∃ h, cs.add r reason loc = (some cs.nextId, cs.push ⟨r, reason, loc⟩ h) ∧
        ¬ r.IsConstConst ∧ ∀ e ∈ cs.entries, e.2.relation ≠ r := by
  unfold add
  split
  · next a b => exact .inl ⟨rfl, .inl ⟨a, b, rfl⟩⟩
  · next hcc =>
    have hnot : ¬ r.IsConstConst := by
      rintro ⟨a, b, rfl⟩
      exact hcc a b rfl
    split
    · next id hid =>
      obtain ⟨c, hc, hr⟩ := mem_of_idOf? hid
      exact .inl ⟨rfl, .inr ⟨(id, c), hc, hr⟩⟩
    · next hid =>
      exact .inr ⟨hid, rfl, hnot, idOf?_eq_none_iff.1 hid⟩

theorem add_refused_iff :
    (cs.add r reason loc).1 = none ↔ (r.IsConstConst ∨ ∃ e ∈ cs.entries, e.2.relation = r) ∧
      (cs.add r reason loc).2 = cs := by
  rcases add_spec cs r reason loc with ⟨h, hr⟩ | ⟨_, h, hcc, hnew⟩ <;> rw [h]
  · exact iff_of_true rfl ⟨hr, rfl⟩
  · refine iff_of_false (fun h => nomatch h) ?_
    rintro ⟨hcc' | ⟨e, he, hr⟩, -⟩
    · exact hcc hcc'
    · exact hnew e he hr

/-- What an operation can do: keep a sublist of the constraints under the same next id, adding
nothing, or append one constraint under the next id with a relation no live constraint has. -/
theorem Op.run_cases (op : Op) (cs : ConstraintStore) :
    ((op.run cs).1 = none ∧ (op.run cs).2.nextId = cs.nextId ∧
      (op.run cs).2.entries.Sublist cs.entries) ∨
    ∃ c : Constraint, (op.run cs).1 = some cs.nextId ∧ (op.run cs).2.nextId = cs.nextId + 1 ∧
      (op.run cs).2.entries = cs.entries ++ [(cs.nextId, c)] ∧ ∀ e ∈ cs.entries, e.2.relation ≠ c.relation := by
  -- every addition is one of `add`; the rest keep the constraints or filter them
  have hadd : ∀ r reason loc, ((cs.add r reason loc).1 = none ∧ (cs.add r reason loc).2.nextId = cs.nextId ∧
      (cs.add r reason loc).2.entries.Sublist cs.entries) ∨
      ∃ c : Constraint, (cs.add r reason loc).1 = some cs.nextId ∧
        (cs.add r reason loc).2.nextId = cs.nextId + 1 ∧
        (cs.add r reason loc).2.entries = cs.entries ++ [(cs.nextId, c)] ∧
        ∀ e ∈ cs.entries, e.2.relation ≠ c.relation := by
    intro r reason loc
    rcases add_spec cs r reason loc with ⟨h, -⟩ | ⟨_, h, -, hnew⟩ <;> rw [h]
    · exact .inl ⟨rfl, rfl, List.Sublist.refl _⟩
    · exact .inr ⟨⟨r, reason, loc⟩, rfl, rfl, rfl, hnew⟩
  have hkeep : ∀ cs' : ConstraintStore, cs'.nextId = cs.nextId → cs'.entries.Sublist cs.entries →
      ((none : Option Nat) = none ∧ cs'.nextId = cs.nextId ∧ cs'.entries.Sublist cs.entries) :=
    fun _ hn hs => ⟨rfl, hn, hs⟩
  cases op with
  | fresh => exact .inl (hkeep _ rfl (List.Sublist.refl _))
  | getOrCreate v => exact .inl (hkeep _ rfl (List.Sublist.refl _))
  | registerChain ch =>
    exact .inl (hkeep (cs.registerChain ch) (registerChain_nextId cs ch) (by rw [registerChain_entries]))
  | add r reason loc => exact hadd r reason loc
  | addEq l r reason loc => exact hadd _ reason loc
  | addGeq v q reason loc => exact hadd _ reason loc
  | addWild v reason loc => exact hadd _ reason loc
  | remove id => exact .inl (hkeep _ (remove_nextId cs id) (by rw [Op.run, remove_entries]; exact List.filter_sublist))
  | removeReason reason =>
    exact .inl (hkeep _ (removeReason_nextId cs reason)
      (by rw [Op.run, removeReason_entries]; exact List.filter_sublist))
  | reset => exact .inl (hkeep _ rfl (List.Sublist.refl _))
  | solve =>
    -- a solve replaces only the environment
    left
    simp only [Op.run]
    split
    · next st cs' h =>
      have heq := (leastClosed_solve h).1
      exact ⟨rfl, by rw [heq], by rw [heq]⟩
    · exact ⟨rfl, rfl, List.Sublist.refl _⟩

theorem runAll_issued : ∀ (ops : List Op) (cs : ConstraintStore),
    (Op.runAll ops cs).1 = List.range' cs.nextId ((Op.runAll ops cs).2.nextId - cs.nextId) ∧
      cs.nextId ≤ (Op.runAll ops cs).2.nextId
  | [], cs => ⟨by simp only [Op.runAll, Nat.sub_self, List.range'_zero], Nat.le_refl _⟩
  | op :: ops, cs => by
    obtain ⟨hrange, hnext⟩ := runAll_issued ops (op.run cs).2
    simp only [Op.runAll]
    rcases op.run_cases cs with ⟨hnone, hn, -⟩ | ⟨c, hsome, hn, -, -⟩
    · -- nothing added: the rest of the run hands out the ids
      rw [hn] at hrange hnext
      rw [hnone, Option.toList_none, List.nil_append]
      exact ⟨hrange, hnext⟩
    · -- the next id, then the ids after it
      rw [hn] at hrange hnext
      have hlen : (Op.runAll ops (op.run cs).2).2.nextId - cs.nextId =
          ((Op.runAll ops (op.run cs).2).2.nextId - (cs.nextId + 1)) + 1 := by omega
      rw [hsome, Option.toList_some, List.singleton_append, hlen, List.range'_succ, hrange]
      exact ⟨rfl, by omega⟩

theorem runAll_add_new (reason : String) (loc : Option SourceLoc) :
    ∀ (rs : List Relation) (cs : ConstraintStore), rs.Nodup → (∀ r ∈ rs, ¬ r.IsConstConst) →
      (∀ r ∈ rs, ∀ e ∈ cs.entries, e.2.relation ≠ r) →
      (Op.runAll (rs.map fun r => .add r reason loc) cs).1 = List.range' cs.nextId rs.length
  | [], _, _, _, _ => rfl
  | r :: rs, cs, hnd, hcc, hnew => by
    obtain ⟨hr, hnd⟩ := List.nodup_cons.1 hnd
    rcases add_spec cs r reason loc with ⟨-, hcc' | ⟨e, he, her⟩⟩ | ⟨h, hadd, -, -⟩
    · exact absurd hcc' (hcc r List.mem_cons_self)
    · exact absurd her (hnew r List.mem_cons_self e he)
    · -- the rest are new to the store with `r` added, as `r` is none of them
      have hnew' : ∀ r' ∈ rs, ∀ e ∈ (cs.push ⟨r, reason, loc⟩ h).entries, e.2.relation ≠ r' := by
        intro r' hr' e he
        rcases List.mem_append.1 he with he | he
        · exact hnew r' (List.mem_cons_of_mem _ hr') e he
        · rw [List.mem_singleton.1 he]
          intro h'
          exact hr (by rw [show r = r' from h']; exact hr')
      have hrest := runAll_add_new reason loc rs _ hnd (fun r' hr' => hcc r' (List.mem_cons_of_mem _ hr')) hnew'
      simp only [List.map_cons, Op.runAll, Op.run, hadd, Option.toList_some, List.singleton_append, hrest,
        push_nextId, List.length_cons, List.range'_succ]

theorem map_toUInt32_nodup {l : List Nat} (hl : l.Nodup) (hlt : ∀ x ∈ l, x < 2 ^ 32) :
    (l.map Nat.toUInt32).Nodup :=
  hl.map_on fun x hx y hy h => toUInt32_inj_of_lt (hlt x hx) (hlt y hy) h

/-! ## The views -/

theorem idOf?_eq_some_iff {id : Nat} :
    cs.idOf? r = some id ↔ ∃ c, (id, c) ∈ cs.entries ∧ c.relation = r := by
  refine ⟨mem_of_idOf?, fun ⟨c, hc, hr⟩ => ?_⟩
  -- the first constraint with the relation is the only one
  have hsome : (cs.entries.find? fun e => e.2.relation == r).isSome :=
    List.find?_isSome.2 ⟨(id, c), hc, by simpa using hr⟩
  obtain ⟨e, he⟩ := Option.isSome_iff_exists.1 hsome
  have heq : e = (id, c) := cs.views.eq_of_relation (List.mem_of_find?_eq_some he) hc
    ((by simpa using List.find?_some he : e.2.relation = r).trans hr.symm)
  rw [idOf?_eq, he, heq]
  rfl

theorem mem_constraintsOf_iff {v id : Nat} :
    id ∈ cs.constraintsOf v ↔ ∃ c, (id, c) ∈ cs.entries ∧ v ∈ c.relation.vars := by
  simp only [constraintsOf_eq, List.mem_map, List.mem_filter, List.contains_iff_mem]
  constructor
  · rintro ⟨⟨id', c⟩, ⟨hc, hv⟩, rfl⟩
    exact ⟨c, hc, hv⟩
  · rintro ⟨c, hc, hv⟩
    exact ⟨(id, c), ⟨hc, hv⟩, rfl⟩

theorem constraintsOf_ascending (cs : ConstraintStore) (v : Nat) :
    (cs.constraintsOf v).Pairwise (· < ·) := by
  rw [constraintsOf_eq]
  exact cs.views.ascending.sublist (List.filter_sublist.map Prod.fst)

theorem addEq_comm (cs : ConstraintStore) (l r : Atom) (reason : String) (loc : Option SourceLoc) :
    cs.addEq l r reason loc = cs.addEq r l reason loc := by
  rcases Relation.mkEq_comm l r with h | ⟨a, b, rfl, rfl⟩
  · simp only [addEq, h]
  · rfl

theorem findWild?_eq_some_iff {v id : Nat} :
    cs.findWild? v = some id ↔ (∃ c, (id, c) ∈ cs.entries ∧ c.relation = .geq v .wild) ∨
      ((∀ e ∈ cs.entries, e.2.relation ≠ .geq v .wild) ∧
        ∃ c, (id, c) ∈ cs.entries ∧ c.relation = .eq (.var v) (.const .wild)) := by
  have hmk : Relation.mkEq (.var v) (.const .wild) = .eq (.var v) (.const .wild) := rfl
  unfold findWild?
  rw [hmk]
  cases hgeq : cs.idOf? (.geq v .wild) with
  | some id' =>
    obtain ⟨c', hc', hr'⟩ := mem_of_idOf? hgeq
    rw [Option.some_or, Option.some.injEq, ← idOf?_eq_some_iff, hgeq, Option.some.injEq]
    constructor
    · exact .inl
    · rintro (h1 | ⟨hnone, -⟩)
      · exact h1
      · exact absurd hr' (hnone _ hc')
  | none =>
    rw [Option.none_or, idOf?_eq_some_iff]
    have hnone : ∀ e ∈ cs.entries, e.2.relation ≠ .geq v .wild := by
      intro e he hr
      obtain ⟨id', hid'⟩ : ∃ id', cs.idOf? (.geq v .wild) = some id' :=
        ⟨e.1, idOf?_eq_some_iff.2 ⟨e.2, he, hr⟩⟩
      rw [hgeq] at hid'
      cases hid'
    constructor
    · exact fun h2 => .inr ⟨hnone, h2⟩
    · rintro (⟨c, hc, hr⟩ | ⟨-, h2⟩)
      · exact absurd hr (hnone _ hc)
      · exact h2

theorem findWild?_isSome_iff [UnifyTable] (p : Program) (cs : ConstraintStore) (v : Nat) :
    (cs.findWild? v).isSome = true ↔ (WildGroups.compute p cs).isRealWild v = true := by
  rw [WildGroups.compute_isRealWild]
  constructor
  · intro hs
    obtain ⟨id, hid⟩ := Option.isSome_iff_exists.1 hs
    obtain ⟨c, hc, hw⟩ := mem_of_findWild? hid
    exact ⟨(id, c), hc, hw⟩
  · rintro ⟨e, he, hw⟩
    have hfound : ∀ rel, e.2.relation = rel → (cs.idOf? rel).isSome = true := fun rel hrel =>
      Option.isSome_iff_exists.2 ⟨e.1, idOf?_eq_some_iff.2 ⟨e.2, he, hrel⟩⟩
    unfold findWild?
    rw [Option.isSome_or, Bool.or_eq_true]
    unfold Relation.directWild? at hw
    split at hw
    · cases hw
      exact .inr (hfound _ ‹_›)
    · cases hw
      exact .inl (hfound _ ‹_›)
    · cases hw

end ConstraintStore

namespace Session

theorem speculate_noWild_iff [UnifyTable] {s : Session} (hw : s.program.store.Wf) (hg : s.groups.isSome = true)
    (v : Nat) (scope : Retraction) :
    s.speculate v scope = .error (.noWildConstraint v) ↔ s.program.store.findWild? v = none := by
  constructor
  · intro h
    rcases speculate_error hw h with ⟨hnone, -⟩ | ⟨-, hid, -⟩
    · rw [hnone] at hg
      cases hg
    · exact hid
  · intro hid
    obtain ⟨before, hg⟩ := Option.isSome_iff_exists.1 hg
    simp only [speculate, hg, hid]
    rfl

end Session

namespace ConstraintStore

end ConstraintStore


end CheckedPointers
