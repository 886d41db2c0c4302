import CheckedPointers.Proofs.SessionInvariants

/-!
# `wild` is indivisible under an outer pointer

An entry's slots, outermost first, are registered as a chain when there are two or more, and a
closed store makes a chain whose outermost slot is `wild` `wild` throughout. So every entry a
program reaches from its tables (`Program.Reaches`: recorded at a key, made up for a definition,
or embedded in a reached one) is `wild` throughout as soon as its outermost slot is, in every
session after a solve or a committed speculation (`Program.WildIndivisible`).

A slot built for an array level gets a constraint `v >= arr` with the array reason
(`Arena.build_records_array_levels`); no change to a session ever drops such a constraint, since
a speculation retracts only constraints forcing `wild` and those sharing their reason; so after
a solve or a commit every such slot is at least `arr`.
-/

namespace CheckedPointers

open ConstraintStore

namespace Arena

theorem foldl_levelStep_arrays (levels : List Level) (acc : List Nat × ConstraintStore) (hw : acc.2.Wf) :
    ∀ x ∈ (List.range' acc.2.numVars levels.length).zip levels, x.2 = .array →
      ∃ e ∈ (levels.foldl levelStep acc).2.entries,
        e.2.relation = .geq x.1 .arr ∧ e.2.reason = Reason.arrayDecl := by
  induction levels generalizing acc with
  | nil => intro x hx; simp at hx
  | cons l ls ih =>
    intro x hx hl
    rw [List.length_cons, List.range'_succ, List.zip_cons_cons, List.mem_cons] at hx
    have hgrow := (foldl_levelStep ls (levelStep acc l)).2.2
    rcases hx with rfl | hx
    · -- the slot of this level is fresh, so no constraint mentions it yet
      dsimp only at hl
      subst hl
      have hnew : ∀ e ∈ acc.2.fresh.2.entries, e.2.relation ≠ .geq acc.2.numVars .arr := by
        intro e he hrel
        have hlt := hw.registered.1 e he acc.2.numVars (by rw [hrel]; simp [Relation.vars])
        exact Nat.lt_irrefl _ hlt
      have hmem : (acc.2.fresh.2.nextId, (⟨.geq acc.2.numVars .arr, Reason.arrayDecl, none⟩ : Constraint)) ∈
          (levelStep acc .array).2.entries := by
        show _ ∈ (acc.2.fresh.2.addGeq acc.2.numVars .arr Reason.arrayDecl none).2.entries
        rw [addGeq_snd, add_of_new (fun _ _ h => by cases h) hnew]
        simp
      exact ⟨_, hgrow.extends.entries.subset hmem, rfl, rfl⟩
    · rw [List.foldl_cons]
      exact ih (levelStep acc l) ((grows_levelStep acc l).wf hw) x (by rwa [levelStep_numVars]) hl

/-- Building a pointer entry gives it one slot per level, and each slot of an array level a
constraint `v >= arr` with the array reason. -/
theorem build_records_array_levels {a : Arena} {cs : ConstraintStore} (hw : cs.Wf)
    (hs : a.SlotsBelow cs.numVars) (name base : String) (levels : List Level)
    (function : Option FunctionShape) (ann : Annotations) (hne : levels ≠ [] ∨ function = none) :
    ∃ pe, (a.build cs name ⟨base, levels, function⟩ ann).2.1.pointer?
        (a.build cs name ⟨base, levels, function⟩ ann).1 = some pe ∧ pe.slots.length = levels.length ∧
      ∀ x ∈ pe.slots.zip levels, x.2 = .array →
        ∃ e ∈ (a.build cs name ⟨base, levels, function⟩ ann).2.2.entries,
          e.2.relation = .geq x.1 .arr ∧ e.2.reason = Reason.arrayDecl := by
  rw [build_pointer a cs name base levels function ann hne]
  dsimp only
  obtain ⟨hslots, hnum, hgrow⟩ := foldl_levelStep levels ([], cs)
  have harr := foldl_levelStep_arrays levels ([], cs) hw
  set r := levels.foldl levelStep ([], cs)
  dsimp only at hslots hnum hgrow harr
  simp only [List.nil_append] at hslots
  -- what the embedded function adds only grows the store
  have hemb := (builds_buildEmbedded a (r.2.registerChain r.1) name
    (hs.mono (hgrow.extends.numVars_le.trans_eq (by simp [numVars]))) function).store
  refine ⟨_, pointer?_alloc_self _ _, by rw [hslots, List.length_range'], fun x hx hl => ?_⟩
  rw [hslots] at hx
  obtain ⟨e, he, hrel⟩ := harr x hx hl
  refine ⟨e, hemb.extends.entries.subset ?_, hrel⟩
  rw [registerChain_entries]
  exact he

end Arena

namespace Program

/-- The entries a program reaches from its tables: those recorded at a key and those made up for a
definition, and below a reached entry the function a pointer points to and a function's return
and parameter alternatives. -/
inductive Reaches (p : Program) : Nat → Prop
  | recorded (key : DeclKey) (ids : SortedSet Nat) (id : Nat) (h : (key, ids) ∈ p.entriesAt.toList)
      (hid : id ∈ ids.toList) : Reaches p id
  | synthesized (k : String) (id : Nat) (h : (k, id) ∈ p.synthesized.toList) : Reaches p id
  | pointee (id : Nat) (pe : PointerEntry) (f : Nat) (h : Reaches p id) (hp : p.arena.pointer? id = some pe)
      (hf : pe.function = some f) : Reaches p f
  | returns (id : Nat) (fe : FunctionEntry) (r : Nat) (h : Reaches p id) (hf : p.arena.function? id = some fe)
      (hr : r ∈ fe.returns.toList) : Reaches p r
  | params (id : Nat) (fe : FunctionEntry) (ps : SortedSet Nat) (x : Nat) (h : Reaches p id)
      (hf : p.arena.function? id = some fe) (hps : ps ∈ fe.params) (hx : x ∈ ps.toList) : Reaches p x

/-- Every pointer entry the program reaches is `wild` throughout once its outermost slot is. -/
def WildIndivisible (p : Program) : Prop :=
  ∀ id, p.Reaches id → ∀ pe, p.arena.pointer? id = some pe →
    ∀ v ∈ pe.slots.head?, p.store.isWild v = true → ∀ w ∈ pe.slots, p.store.isWild w = true

/-- Every slot that `held` records for an array level is at least `arr` in the program's store. -/
def ArraysAtLeast (p : Program) (held : ConstraintStore) : Prop :=
  ∀ e ∈ held.entries, e.2.reason = Reason.arrayDecl → ∀ v, e.2.relation = .geq v .arr →
    Qualifier.arr ≤ p.store.assignment v

variable {p : Program}

theorem Wf.chained_of_reaches (hw : p.Wf) {id : Nat} (h : p.Reaches id) : p.arena.Chained p.store.chains id := by
  induction h with
  | recorded key ids id h hid => exact hw.recorded _ h id hid
  | synthesized k id h => exact hw.synthesized _ h
  | pointee id pe f _ hp hf ih => exact ih.pointee hp f hf
  | returns id fe r _ hf hr ih => exact ih.returns hf r hr
  | params id fe ps x _ hf hps hx ih => exact ih.params hf ps hps x hx

theorem Wf.wildIndivisible (hw : p.Wf) (hc : p.store.Closed p.store.env) : p.WildIndivisible := by
  intro id hr pe hp v hv hwild w hw'
  rw [isWild_iff_read] at hwild ⊢
  by_cases hlen : 2 ≤ pe.slots.length
  · exact hc.chains _ ((hw.chained_of_reaches hr).slots hp hlen) v hv hwild w hw'
  · -- one slot at most: it is the outermost one
    match hs : pe.slots, hv, hw' with
    | [u], hv, hw' =>
      rw [List.mem_singleton] at hw'
      rw [List.head?_cons, Option.mem_some_iff] at hv
      rw [hw', hv]
      exact hwild
    | [], hv, _ => simp at hv
    | _ :: _ :: _, _, _ => rw [hs] at hlen; simp at hlen

theorem arraysAtLeast_of_closed {held : ConstraintStore} (hc : p.store.Closed p.store.env)
    (hkeep : ∀ e ∈ held.entries, e.2.reason = Reason.arrayDecl → e ∈ p.store.entries) :
    p.ArraysAtLeast held := by
  intro e he hr v hv
  have h := hc.relations e (hkeep e he hr)
  rw [hv] at h
  exact h

end Program

namespace Session

variable {mayFail : Session → Prop} {s s' s'' : Session} {o : Options}

/-- Every constraint `s` records for an array level is still in `s'`. -/
def KeepsArrays (s s' : Session) : Prop :=
  ∀ e ∈ s.program.store.entries, e.2.reason = Reason.arrayDecl → e ∈ s'.program.store.entries

theorem KeepsArrays.trans (h : KeepsArrays s s') (h' : KeepsArrays s' s'') : KeepsArrays s s'' :=
  fun e he hr => h' e (h e he hr) hr

section Table

variable [UnifyTable]

theorem Step.keepsArrays (h : Step mayFail s s') (hw : s.program.Wf) : KeepsArrays s s' := by
  rcases h.outcome hw with ⟨-, p, -, he, rfl⟩ | ⟨p, -, he, rfl⟩ | rfl | ⟨p, q, -, -, harr, rfl⟩
  · exact fun e he' _ => he.store.extends.entries.subset he'
  · exact fun e he' _ => he.store.extends.entries.subset he'
  · exact fun e he _ => he
  · exact harr

theorem keepsArrays_of_run (h₀ : Reachable mayFail o s) (h : Relation.ReflTransGen (Step mayFail) s s') :
    Reachable mayFail o s' ∧ KeepsArrays s s' := by
  induction h with
  | refl => exact ⟨h₀, fun _ he _ => he⟩
  | tail _ step ih => exact ⟨ih.1.tail step, ih.2.trans (step.keepsArrays (Reachable.wf ih.1))⟩

/-- After a solve or a committed speculation, every entry the program reaches is `wild` throughout
once its outermost slot is `wild`, and every slot built for an array level in any earlier session is
at least `arr`; building an entry records, for each of its array levels, that its slot is. -/
theorem solved_wild_is_indivisible {s₀ : Session} (h₀ : Reachable (fun _ => True) o s₀)
    (h : Relation.ReflTransGen (Step fun _ => True) s₀ s) :
    (∀ r s', solve.run s = .ok r s' →
      s'.program.WildIndivisible ∧ s'.program.ArraysAtLeast s₀.program.store) ∧
    (∀ v scope sp, s.speculate v scope = .ok sp →
      (s.commit sp).program.WildIndivisible ∧ (s.commit sp).program.ArraysAtLeast s₀.program.store) ∧
    ∀ (a : Arena) (cs : ConstraintStore), cs.Wf → a.SlotsBelow cs.numVars →
      ∀ name base levels function ann, levels ≠ [] ∨ function = none →
      ∃ pe, (a.build cs name ⟨base, levels, function⟩ ann).2.1.pointer?
          (a.build cs name ⟨base, levels, function⟩ ann).1 = some pe ∧ pe.slots.length = levels.length ∧
        ∀ x ∈ pe.slots.zip levels, x.2 = .array →
          ∃ e ∈ (a.build cs name ⟨base, levels, function⟩ ann).2.2.entries,
            e.2.relation = .geq x.1 .arr ∧ e.2.reason = Reason.arrayDecl := by
  obtain ⟨hr, hkeep⟩ := keepsArrays_of_run h₀ h
  have hw := hr.wf
  refine ⟨fun r s' hs => ?_, fun v scope sp hsp => ?_, fun a cs hcs has name base levels function ann hne =>
    Arena.build_records_array_levels hcs has name base levels function ann hne⟩
  · -- a solve that succeeds was of a built session, and leaves a closed store
    rcases solve_run hw with ⟨-, hfail⟩ | ⟨-, r', p, hok, hwp, hc, hpre⟩
    · rw [hfail] at hs
      cases hs
    · rw [hok] at hs
      cases hs
      exact ⟨hwp.wildIndivisible hc,
        Program.arraysAtLeast_of_closed hc fun e he hre => hpre.subset (hkeep e he hre)⟩
  · obtain ⟨h1, hc, h3, h4, harr, -⟩ := speculate_ok hw.store hsp
    have hwc : (s.commit sp).program.Wf := hw.withStoreOf h1 h3 h4
    exact ⟨hwc.wildIndivisible hc,
      Program.arraysAtLeast_of_closed hc fun e he hre => harr e (hkeep e he hre) hre⟩

end Table

theorem solved_wild_is_indivisible_of_array_decl :
    let s := stateOf ((build [.declare
      { key := ⟨"a.c", 1, 1, "a"⟩, kind := .variable, ty := ⟨"int", [.array, .pointer], none⟩ }]).run
        (create {}))
    Reachable (fun _ => True) {} s ∧ Relation.ReflTransGen (Step fun _ => True) s s ∧
    (∀ r s', solve.run s = .ok r s' →
      s'.program.WildIndivisible ∧ s'.program.ArraysAtLeast s.program.store) ∧
    (∀ v scope sp, s.speculate v scope = .ok sp →
      (s.commit sp).program.WildIndivisible ∧ (s.commit sp).program.ArraysAtLeast s.program.store) ∧
    ∀ (a : Arena) (cs : ConstraintStore), cs.Wf → a.SlotsBelow cs.numVars →
      ∀ name base levels function ann, levels ≠ [] ∨ function = none →
      ∃ pe, (a.build cs name ⟨base, levels, function⟩ ann).2.1.pointer?
          (a.build cs name ⟨base, levels, function⟩ ann).1 = some pe ∧ pe.slots.length = levels.length ∧
        ∀ x ∈ pe.slots.zip levels, x.2 = .array →
          ∃ e ∈ (a.build cs name ⟨base, levels, function⟩ ann).2.2.entries,
            e.2.relation = .geq x.1 .arr ∧ e.2.reason = Reason.arrayDecl := by
  intro s
  have hr : Reachable (fun _ => True) {} s := Relation.ReflTransGen.single (Step.build _ _ fun _ _ _ => trivial)
  exact ⟨hr, Relation.ReflTransGen.refl, solved_wild_is_indivisible hr Relation.ReflTransGen.refl⟩

/-- A speculation committed after a later build drops `q`'s chain, and `q : int**` solves to
`[wild, ptr]`. -/
theorem stale_commit_splits_chain :
    let s₁ := stateOf (solve.run (stateOf ((build [.declare
      { key := ⟨"a.c", 1, 1, "p"⟩, kind := .variable, ty := ⟨"int", [.pointer], none⟩
        inMacro := true }]).run (create {}))))
    let qFacts : List Fact :=
      [.declare { key := ⟨"a.c", 2, 1, "q"⟩, kind := .variable, ty := ⟨"int", [.pointer, .pointer], none⟩ }]
    let rFacts : List Fact :=
      [.declare { key := ⟨"a.c", 3, 1, "r"⟩, kind := .variable, ty := ⟨"int", [.pointer], none⟩
                  inMacro := true }]
    ∃ sp, s₁.speculate 0 .single = .ok sp ∧
      let s := stateOf (solve.run (stateOf ((build rFacts).run ((stateOf ((build qFacts).run s₁)).commit sp))))
      ClientReachable {} ⟨s, [sp]⟩ ∧ s.solution ⟨"a.c", 2, 1, "q"⟩ = [[.wild, .ptr]] := by
  intro s₁ qFacts rFacts
  have hcomp : (s₁.speculate 0 .single).toOption.map (fun sp =>
      (stateOf (solve.run (stateOf ((build rFacts).run ((stateOf ((build qFacts).run s₁)).commit sp))))).solution
        ⟨"a.c", 2, 1, "q"⟩ == [[.wild, .ptr]]) = some true := by decide +kernel
  cases hsp : s₁.speculate 0 .single with
  | error err =>
    rw [hsp] at hcomp
    cases hcomp
  | ok sp =>
    rw [hsp] at hcomp
    refine ⟨sp, rfl, ?_, beq_iff_eq.1 (Option.some.inj hcomp)⟩
    -- build, solve, speculate and keep, build, commit, build, solve
    have h₁ : ClientReachable {} ⟨s₁, [sp]⟩ := (((clientReachable_create {}).build _).solve).keep hsp
    exact (((h₁.build qFacts).commit List.mem_cons_self).build rFacts).solve

end Session

end CheckedPointers
