import CheckedPointers.Proofs.Refs
import CheckedPointers.Proofs.Speculation
import CheckedPointers.Proofs.PassCount

/-!
# What every session keeps in bounds

Two facts about every session a client can reach, whatever facts it built and whichever builds
failed part way.

* Every number that names an entry names one of the arena. An entry embeds (as its function, its
  returns or its parameters) only entries allocated before it, and every table of the program, the
  call-site arguments recorded on entries included, names entries of the arena
  (`Session.reachable_entries_embed_earlier`). So the arena's views, which descend from an entry to
  what it embeds and guard each step by the smaller number, never find a guard closed: the slots an
  entry reaches are its own and those of everything it embeds (`Arena.RefsBelow.varsOf_eq`), and it
  is checked when it and everything it embeds are (`Arena.RefsBelow.isChecked_eq`).
* Every slot that a constraint, a chain or a pointer entry names is registered in the store
  (`Session.reachable_slots_registered`). Every environment a solve passes through has one
  qualifier per registered slot, so no step of a pass reads or raises a slot outside it, and neither
  a solve nor a speculation is ever refused for an unregistered slot.
-/

namespace CheckedPointers

open ConstraintStore

namespace Arena

variable {a : Arena} {id : Nat}

theorem RefsBelow.child (h : a.RefsBelow) {c : Nat} (hc : c ∈ a.children id) :
    c < id ∧ (a.get? c).isSome := by
  refine ⟨h.back id c hc, ?_⟩
  -- an entry that embeds something is there, and refers only to entries of the arena
  cases hid : a.get? id with
  | none => simp [children, hid] at hc
  | some e =>
    have hlt := h.inArena id e hid c (mem_refs_of_mem_children hid hc)
    simp [get?, Array.getElem?_eq_getElem hlt]

theorem foldl_attach_guard {β : Type} {l : List Nat} (hl : ∀ c ∈ l, c < id) (f : β → Nat → β)
    (init : β) :
    l.attach.foldl (fun acc c => if _h : c.1 < id then f acc c.1 else acc) init = l.foldl f init :=
  (List.foldl_ext _ _ init fun _ c _ => dif_pos (hl c.1 c.2)).trans List.foldl_attach

theorem varsOf_eq_of_back (h : ∀ c ∈ a.children id, c < id) :
    a.varsOf id = (a.children id).foldl (fun acc c => acc.union (a.varsOf c))
      (match a.get? id with
        | some (.pointer p) => SortedSet.ofList p.slots
        | _ => SortedSet.empty) := by
  rw [varsOf]
  exact foldl_attach_guard h (fun (acc : SortedSet Nat) c => acc.union (a.varsOf c)) _

/-- The slots an entry reaches are its own and those of every entry it embeds. -/
theorem RefsBelow.varsOf_eq (h : a.RefsBelow) (id : Nat) :
    a.varsOf id = (a.children id).foldl (fun acc c => acc.union (a.varsOf c))
      (match a.get? id with
        | some (.pointer p) => SortedSet.ofList p.slots
        | _ => SortedSet.empty) :=
  varsOf_eq_of_back (h.back id)

/-- An entry is checked when no slot of its own is `wild` and every entry it embeds is checked. -/
theorem RefsBelow.isChecked_eq (h : a.RefsBelow) (cs : ConstraintStore) (id : Nat) :
    a.isChecked cs id = ((match a.get? id with
        | some (.pointer p) => p.slots.all fun v => !cs.isWild v
        | _ => true) && (a.children id).all (a.isChecked cs)) := by
  rw [isChecked]
  congr 1
  refine Bool.eq_iff_iff.2 ⟨fun hall => List.all_eq_true.2 fun c hc => ?_, fun hall => ?_⟩
  · have hc' := List.all_eq_true.1 hall ⟨c, hc⟩ (List.mem_attach _ _)
    rwa [dif_pos (h.back id c hc)] at hc'
  · refine List.all_eq_true.2 fun c _ => ?_
    rw [dif_pos (h.back id c.1 c.2)]
    exact List.all_eq_true.1 hall c.1 c.2

end Arena

namespace Session

variable {s : Session} {o : Options} {v : Nat} {scope : Retraction} {e : Error}

section Table

variable [UnifyTable]

theorem speculate_error (hw : s.program.store.Wf) (h : s.speculate v scope = .error e) :
    (s.groups = none ∧ e = .notBuilt) ∨
      (s.groups.isSome ∧ s.program.store.findWild? v = none ∧ e = .noWildConstraint v) := by
  cases hg : s.groups with
  | none =>
    simp only [speculate, hg] at h
    cases h
    exact .inl ⟨rfl, rfl⟩
  | some before =>
    cases hid : s.program.store.findWild? v with
    | none =>
      simp only [speculate, hg, hid] at h
      cases h
      exact .inr ⟨rfl, rfl, rfl⟩
    | some id =>
      obtain ⟨c, hc, -⟩ := mem_of_findWild? hid
      obtain ⟨r, hs⟩ := hw.retract_solve_ok id c scope
      rw [speculate_eq hg hid hc hs] at h
      cases h

/-- In every reachable session, each arena entry embeds only earlier entries, and every table that
names an entry names one of the arena. -/
theorem reachable_entries_embed_earlier (hr : Reachable (fun _ => True) o s) :
    (∀ id, ∀ c ∈ s.program.arena.children id, c < id ∧ (s.program.arena.get? c).isSome) ∧
    (∀ k ∈ s.program.entriesAt.toList, ∀ id ∈ k.2.toList, id < s.program.arena.size) ∧
    (∀ g ∈ s.program.globals.toList, ∀ id ∈ g.2.toList, id < s.program.arena.size) ∧
    (∀ f ∈ s.program.functions.toList, f.2.entry < s.program.arena.size) ∧
    (∀ d ∈ s.program.synthesized.toList, d.2 < s.program.arena.size) ∧
    (∀ id pe, s.program.arena.pointer? id = some pe →
      ∀ x ∈ pe.arguments.toList, x < s.program.arena.size) ∧
    (∀ id, s.program.arena.varsOf id =
      (s.program.arena.children id).foldl (fun acc c => acc.union (s.program.arena.varsOf c))
        (match s.program.arena.get? id with
          | some (.pointer p) => SortedSet.ofList p.slots
          | _ => SortedSet.empty)) ∧
    ∀ cs id, s.program.arena.isChecked cs id = ((match s.program.arena.get? id with
        | some (.pointer p) => p.slots.all fun v => !cs.isWild v
        | _ => true) && (s.program.arena.children id).all (s.program.arena.isChecked cs)) := by
  have hp := hr.refsOk
  refine ⟨fun id c hc => hp.refs.child hc, fun k hk id hid => ?_, fun g hg id hid => ?_,
    fun f hf => (hp.names.functions f hf).lt_size, fun d hd => (hp.wf.synthesized d hd).lt_size,
    fun id pe hpe => (hp.refs.pointer hpe).2, hp.refs.varsOf_eq, hp.refs.isChecked_eq⟩
  · exact (hp.wf.recorded k hk id hid).lt_size
  · exact (hp.names.globals g hg id hid).lt_size

end Table

/-- A function definition with a pointer parameter, called with a pointer declared in a macro:
the function's entry embeds its return and its parameter, built before it, and the call records
the argument on the parameter. -/
theorem reachable_entries_embed_earlier_of_call :
    let fKey : DeclKey := ⟨"a.c", 1, 1, "f"⟩
    let qKey : DeclKey := ⟨"a.c", 2, 1, "q"⟩
    let facts : List Fact :=
      [.declare { key := fKey, kind := .function, isGlobal := true, isDefinition := true,
                  ty := TypeShape.ofSignature (TypeShape.pointer "int" 1)
                    [ParamShape.new "p" (TypeShape.pointer "int" 1)] },
       .declare { key := qKey, kind := .variable, ty := TypeShape.pointer "int" 1, inMacro := true },
       .call (.decl fKey false) [.decl qKey true] none none]
    let s := stateOf ((build facts).run (create {}))
    Reachable (fun _ => True) {} s ∧
    (∀ id, ∀ c ∈ s.program.arena.children id, c < id ∧ (s.program.arena.get? c).isSome) ∧
    (∀ k ∈ s.program.entriesAt.toList, ∀ id ∈ k.2.toList, id < s.program.arena.size) ∧
    (∀ g ∈ s.program.globals.toList, ∀ id ∈ g.2.toList, id < s.program.arena.size) ∧
    (∀ f ∈ s.program.functions.toList, f.2.entry < s.program.arena.size) ∧
    (∀ d ∈ s.program.synthesized.toList, d.2 < s.program.arena.size) ∧
    (∀ id pe, s.program.arena.pointer? id = some pe →
      ∀ x ∈ pe.arguments.toList, x < s.program.arena.size) ∧
    (∀ id, s.program.arena.varsOf id =
      (s.program.arena.children id).foldl (fun acc c => acc.union (s.program.arena.varsOf c))
        (match s.program.arena.get? id with
          | some (.pointer p) => SortedSet.ofList p.slots
          | _ => SortedSet.empty)) ∧
    ∀ cs id, s.program.arena.isChecked cs id = ((match s.program.arena.get? id with
        | some (.pointer p) => p.slots.all fun v => !cs.isWild v
        | _ => true) && (s.program.arena.children id).all (s.program.arena.isChecked cs)) := by
  intro fKey qKey facts s
  have hr : Reachable (fun _ => True) {} s :=
    Relation.ReflTransGen.single (Step.build (create {}) facts fun _ _ _ => trivial)
  exact ⟨hr, reachable_entries_embed_earlier hr⟩

section Table

variable [UnifyTable]

/-- In every reachable session, every slot named by a constraint, a chain or a pointer entry is
registered, so no solve or speculation is refused for an unregistered slot. -/
theorem reachable_slots_registered (hr : Reachable (fun _ => True) o s) :
    s.program.store.Scoped ∧ s.program.arena.SlotsBelow s.program.store.numVars ∧
    (∀ k, (∀ c ∈ s.program.store.entries, ∀ v ∈ c.2.relation.vars,
        v < (s.program.store.passesFrom s.program.store.env k).size) ∧
      ∀ ch ∈ s.program.store.chains, ∀ v ∈ ch,
        v < (s.program.store.passesFrom s.program.store.env k).size) ∧
    (∀ e s', solve.run s = .error e s' → e = .notBuilt) ∧
    ∀ v scope e, s.speculate v scope = .error e → e = .notBuilt ∨ e = .noWildConstraint v := by
  have hw := hr.wf
  have hs := hw.store.registered
  refine ⟨hs, hw.slots, fun k => ⟨fun c hc v hv => ?_, fun ch hch v hv => ?_⟩, fun e s' h => ?_,
    fun v scope e h => ?_⟩
  · rw [size_passesFrom]
    exact hs.1 c hc v hv
  · rw [size_passesFrom]
    exact hs.2 ch hch v hv
  · rcases solve_run hw with ⟨-, hrun⟩ | ⟨-, r, p, hrun, -⟩ <;> rw [hrun] at h <;> cases h
    rfl
  · rcases speculate_error hw.store h with ⟨-, rfl⟩ | ⟨-, -, rfl⟩
    · exact .inl rfl
    · exact .inr rfl

end Table

/-- A build that records a pointer declared in a macro and then fails on dereferencing a function:
the slots it recorded before failing are registered all the same. -/
theorem reachable_slots_registered_of_failed_build :
    let gKey : DeclKey := ⟨"a.c", 2, 1, "g"⟩
    let facts : List Fact :=
      [.declare { key := ⟨"a.c", 1, 1, "q"⟩, kind := .variable
                  ty := ⟨"int", [.pointer, .pointer], none⟩, inMacro := true },
       .declare { key := gKey, kind := .function
                  ty := ⟨"", [], some ⟨⟨"int", [], none⟩, [], false, false⟩⟩ },
       .arithmetic (.deref (.decl gKey false)) none]
    let s := stateOf ((build facts).run (create {}))
    Reachable (fun _ => True) {} s ∧
    s.program.store.Scoped ∧ s.program.arena.SlotsBelow s.program.store.numVars ∧
    (∀ k, (∀ c ∈ s.program.store.entries, ∀ v ∈ c.2.relation.vars,
        v < (s.program.store.passesFrom s.program.store.env k).size) ∧
      ∀ ch ∈ s.program.store.chains, ∀ v ∈ ch,
        v < (s.program.store.passesFrom s.program.store.env k).size) ∧
    (∀ e s', solve.run s = .error e s' → e = .notBuilt) ∧
    ∀ v scope e, s.speculate v scope = .error e → e = .notBuilt ∨ e = .noWildConstraint v := by
  intro gKey facts s
  have hr : Reachable (fun _ => True) {} s :=
    Relation.ReflTransGen.single (Step.build (create {}) facts fun _ _ _ => trivial)
  exact ⟨hr, reachable_slots_registered hr⟩

/-- A speculation committed after a later build puts back the older store, which lacks a slot the
arena kept, and the next solve is refused for it. -/
theorem stale_commit_unregisters_slot :
    let s₁ := stateOf (solve.run (stateOf ((build [.declare
      { key := ⟨"a.c", 1, 1, "p"⟩, kind := .variable, ty := ⟨"int", [.pointer], none⟩
        inMacro := true }]).run (create {}))))
    let gFacts : List Fact :=
      [.declare { key := ⟨"a.h", 1, 1, "g"⟩, kind := .function, isGlobal := true
                  ty := TypeShape.ofSignature (TypeShape.pointer "int" 1) [] }]
    ∃ sp, s₁.speculate 0 .single = .ok sp ∧
      let s := stateOf ((build []).run ((stateOf ((build gFacts).run s₁)).commit sp))
      ClientReachable {} ⟨s, [sp]⟩ ∧ ¬ s.program.store.Scoped ∧
        ∃ s', solve.run s = .error (.unregisteredAtom (some 1) 1) s' := by
  intro s₁ gFacts
  -- run the calls: the store after the last build holds `q1 >= wild` over a single slot
  have hcomp : (s₁.speculate 0 .single).toOption.map (fun sp =>
      let s := stateOf ((build []).run ((stateOf ((build gFacts).run s₁)).commit sp))
      s.program.store.numVars == 1 && s.program.store.entries.any (fun e => e.2.relation == .geq 1 .wild) &&
        errorOf (solve.run s) == some (.unregisteredAtom (some 1) 1)) = some true := by decide +kernel
  cases hsp : s₁.speculate 0 .single with
  | error err =>
    rw [hsp] at hcomp
    cases hcomp
  | ok sp =>
    rw [hsp] at hcomp
    have h := Option.some.inj hcomp
    simp only [Bool.and_eq_true, beq_iff_eq, List.any_eq_true] at h
    obtain ⟨⟨hn, e, he, hrel⟩, hsolve⟩ := h
    refine ⟨sp, rfl, ?_, fun hs => ?_, ⟨_, eq_error_of_errorOf hsolve⟩⟩
    · -- build, solve, speculate and keep, build, commit, build
      have h₁ : ClientReachable {} ⟨s₁, [sp]⟩ := (((clientReachable_create {}).build _).solve).keep hsp
      exact ((h₁.build gFacts).commit List.mem_cons_self).build []
    · have hlt := hs.1 e he 1 (by rw [hrel]; simp [Relation.vars])
      omega

end Session

end CheckedPointers
