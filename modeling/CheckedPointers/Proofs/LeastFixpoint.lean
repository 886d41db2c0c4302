import CheckedPointers.Proofs.Env

/-!
# The solver computes the least closed environment

An environment closes a constraint store when every stored constraint holds in it and every chain
whose outermost slot is `wild` is `wild` throughout (`ConstraintStore.Closed`). A solve of a store
whose constraints and chains name only registered slots ends in the least closed environment above
the one it started from (`ConstraintStore.solve_least_closed`); a store that names an unregistered
slot is refused with that slot, and nothing else is.

The argument is the one for chaotic iteration. Each constraint's step and each chain's step only
raise slots, and never above an environment that is closed and above the start, so no pass
overshoots the least closed environment (`Below.pass`). A pass that changes nothing found every
constraint and chain already satisfied, so it ended in a closed environment (`pass_settled`). A
pass that changes something makes the environment strictly heavier, and the weight is at most
three per slot, so the fuel the solver gives itself is never exhausted (`closed_iterate`).
-/

namespace CheckedPointers

open ConstraintStore

namespace Relation

/-- What a constraint asks of an environment: the two slots of an equality agree, and a slot
equated with a constant, or bounded by one, is at least that constant. An equality between two
constants asks nothing. -/
def Holds (env : Array Qualifier) : Relation → Prop
  | .eq (.var a) (.var b) => read env (.var a) = read env (.var b)
  | .eq (.var v) (.const q) => q ≤ read env (.var v)
  | .eq (.const q) (.var v) => q ≤ read env (.var v)
  | .eq (.const _) (.const _) => True
  | .geq v q => q ≤ read env (.var v)

theorem holds_eq_iff {env : Array Qualifier} {l r : Atom} :
    (Relation.eq l r).Holds env ↔
      (∀ v, l = .var v → read env r ≤ read env (.var v)) ∧
        (∀ v, r = .var v → read env l ≤ read env (.var v)) := by
  cases l with
  | const p =>
    cases r with
    | const q => simp [Holds]
    | var b => simp [Holds]
  | var a =>
    cases r with
    | const q => simp [Holds]
    | var b =>
      simp only [Holds, Atom.var.injEq, forall_eq']
      constructor
      · intro h; rw [h]; exact ⟨Nat.le_refl _, Nat.le_refl _⟩
      · intro h; exact Qualifier.height_injective (Nat.le_antisymm h.2 h.1)

end Relation

/-- A chain whose outermost slot is `wild` is `wild` throughout. -/
def ChainHolds (env : Array Qualifier) (chain : List Nat) : Prop :=
  ∀ v ∈ chain.head?, read env (.var v) = .wild → ∀ w ∈ chain, read env (.var w) = .wild

namespace ConstraintStore

variable {cs : ConstraintStore} {env env' p : Array Qualifier}

/-- Every stored constraint holds and every chain is closed. -/
structure Closed (cs : ConstraintStore) (env : Array Qualifier) : Prop where
  relations : ∀ e ∈ cs.entries, e.2.relation.Holds env
  chains : ∀ ch ∈ cs.chains, ChainHolds env ch

/-- Every slot named by a constraint or a chain is registered. -/
def Scoped (cs : ConstraintStore) : Prop :=
  (∀ e ∈ cs.entries, ∀ v ∈ e.2.relation.vars, v < cs.numVars) ∧
    ∀ ch ∈ cs.chains, ∀ v ∈ ch, v < cs.numVars

/-- The environment `r` is the least one above `start` (and so of its size) that closes `cs`. -/
structure LeastClosed (cs : ConstraintStore) (start r : Array Qualifier) : Prop where
  above : Below start r
  closed : cs.Closed r
  least : ∀ p, Below start p → cs.Closed p → Below r p

theorem Below.read_atom (h : Below env p) (a : Atom) : read env a ≤ read p a := by
  cases a with
  | const q => exact Nat.le_refl _
  | var v => exact h.2 v

/-! ## Sweeps

A pass runs a flagged update over a list, or-ing the flags; so does a chain's step. -/

/-- Applies `f` to each element in turn, or-ing the flags into the accumulator's. -/
def sweep {α : Type} (f : Array Qualifier → α → Array Qualifier × Bool) (xs : List α)
    (acc : Array Qualifier × Bool) : Array Qualifier × Bool :=
  xs.foldl (fun acc x => ((f acc.1 x).1, acc.2 || (f acc.1 x).2)) acc

/-- A flagged update that only rises, reports nothing exactly when it changed nothing, and makes
the environment heavier when it reports a change. -/
structure Rising {α : Type} (f : Array Qualifier → α → Array Qualifier × Bool) : Prop where
  below : ∀ env x, Below env (f env x).1
  settled : ∀ env x, (f env x).2 = false → (f env x).1 = env
  heavier : ∀ env x, (f env x).2 = true → weight env < weight (f env x).1

section Sweep

variable {α : Type} {f : Array Qualifier → α → Array Qualifier × Bool} {xs : List α}

theorem sweep_induct (P : Array Qualifier → Prop) (hstep : ∀ env, ∀ x ∈ xs, P env → P (f env x).1)
    {acc : Array Qualifier × Bool} (h : P acc.1) : P (sweep f xs acc).1 := by
  induction xs generalizing acc with
  | nil => exact h
  | cons x xs ih =>
    exact ih (fun env y hy => hstep env y (List.mem_cons_of_mem x hy)) (hstep acc.1 x (by simp) h)

theorem Rising.below_sweep (hf : Rising f) (xs : List α) (acc : Array Qualifier × Bool) :
    Below acc.1 (sweep f xs acc).1 :=
  sweep_induct (fun e => Below acc.1 e) (fun env x _ h => h.trans (hf.below env x))
    (Below.refl acc.1)

theorem Rising.sweep_settled (hf : Rising f) {acc : Array Qualifier × Bool}
    (h : (sweep f xs acc).2 = false) :
    acc.2 = false ∧ (sweep f xs acc).1 = acc.1 ∧ ∀ x ∈ xs, (f acc.1 x).2 = false := by
  induction xs generalizing acc with
  | nil => exact ⟨h, rfl, fun _ hx => absurd hx List.not_mem_nil⟩
  | cons x xs ih =>
    obtain ⟨hacc, hres, hrest⟩ := ih h
    simp only [Bool.or_eq_false_iff] at hacc
    have hx : (f acc.1 x).1 = acc.1 := hf.settled acc.1 x hacc.2
    refine ⟨hacc.1, hres.trans hx, fun y hy => ?_⟩
    rcases List.mem_cons.1 hy with rfl | hy
    · exact hacc.2
    · rw [← hx]; exact hrest y hy

theorem Rising.sweep_heavier (hf : Rising f) {acc : Array Qualifier × Bool}
    (h : (sweep f xs acc).2 = true) : acc.2 = true ∨ weight acc.1 < weight (sweep f xs acc).1 := by
  induction xs generalizing acc with
  | nil => exact .inl h
  | cons x xs ih =>
    have hmono := (hf.below_sweep xs ((f acc.1 x).1, acc.2 || (f acc.1 x).2)).weight_le
    rcases ih h with hacc | hlt
    · rcases Bool.or_eq_true_iff.1 hacc with hacc | hx
      · exact .inl hacc
      · exact .inr (Nat.lt_of_lt_of_le (hf.heavier acc.1 x hx) hmono)
    · exact .inr (Nat.lt_of_le_of_lt (hf.below acc.1 x).weight_le hlt)

theorem Rising.sweep (hf : Rising f) : Rising fun env (xs : List α) => sweep f xs (env, false) where
  below env xs := hf.below_sweep xs (env, false)
  settled env xs h := (hf.sweep_settled h).2.1
  heavier env xs h := (hf.sweep_heavier h).resolve_left (by simp)

end Sweep

/-! ## One constraint, one chain -/

theorem Rising.comap {α β : Type} {f : Array Qualifier → α → Array Qualifier × Bool} (hf : Rising f)
    (g : β → α) : Rising fun env y => f env (g y) where
  below env y := hf.below env (g y)
  settled env y := hf.settled env (g y)
  heavier env y := hf.heavier env (g y)

theorem raise_rising : Rising fun env (x : Atom × Qualifier) => raise env x.1 x.2 where
  below env x := below_raise env x.1 x.2
  settled _ _ h := raise_eq_of_flag_false h
  heavier _ _ h := weight_lt_raise h

theorem stepRelation_eq_of_join {env : Array Qualifier} {l r : Atom} {j : Qualifier}
    (hj : (read env l).join (read env r) = j) :
    stepRelation env (.eq l r) =
      ((raise (raise env l j).1 r j).1, (raise env l j).2 || (raise (raise env l j).1 r j).2) := by
  subst hj; rfl

theorem stepRelation_rising : Rising stepRelation where
  below env r := by
    cases r with
    | eq l r =>
      rw [stepRelation_eq_of_join rfl]
      exact (below_raise env l _).trans (below_raise _ r _)
    | geq v q => exact below_raise env _ q
  settled env r h := by
    cases r with
    | eq l r =>
      rw [stepRelation_eq_of_join rfl] at h ⊢
      obtain ⟨h1, h2⟩ := Bool.or_eq_false_iff.1 h
      rw [raise_eq_of_flag_false h2, raise_eq_of_flag_false h1]
    | geq v q => exact raise_eq_of_flag_false h
  heavier env r h := by
    cases r with
    | eq l r =>
      rw [stepRelation_eq_of_join rfl] at h ⊢
      rcases Bool.or_eq_true_iff.1 h with h1 | h2
      · exact Nat.lt_of_lt_of_le (weight_lt_raise h1) (below_raise _ r _).weight_le
      · exact Nat.lt_of_le_of_lt (below_raise env l _).weight_le (weight_lt_raise h2)
    | geq v q => exact weight_lt_raise h

theorem Below.stepRelation {r : Relation} (h : Below env p) (hr : r.Holds p) :
    Below (stepRelation env r).1 p := by
  cases r with
  | eq l r =>
    rw [stepRelation_eq_of_join rfl]
    obtain ⟨hl, hr⟩ := Relation.holds_eq_iff.1 hr
    have hjl : ∀ v, l = .var v → (read env l).join (read env r) ≤ read p (.var v) := by
      rintro v rfl
      exact Qualifier.join_le (h.2 v) (Qualifier.le_trans (h.read_atom r) (hl v rfl))
    have hjr : ∀ v, r = .var v → (read env l).join (read env r) ≤ read p (.var v) := by
      rintro v rfl
      exact Qualifier.join_le (Qualifier.le_trans (h.read_atom l) (hr v rfl)) (h.2 v)
    exact (h.raise hjl).raise hjr
  | geq v q => exact h.raise fun w hw => by cases hw; exact hr

theorem holds_of_stepRelation_settled {r : Relation} (h : (stepRelation env r).2 = false)
    (hv : ∀ v ∈ r.vars, v < env.size) : r.Holds env := by
  cases r with
  | eq l r =>
    rw [stepRelation_eq_of_join rfl] at h
    obtain ⟨h1, h2⟩ := Bool.or_eq_false_iff.1 h
    rw [raise_eq_of_flag_false h1] at h2
    refine Relation.holds_eq_iff.2 ⟨?_, ?_⟩
    · rintro v rfl
      exact Qualifier.le_trans (Qualifier.le_join_right _ _)
        (le_read_of_raise_settled (hv v (by simp [Relation.vars, Atom.asVar?])) h1)
    · rintro v rfl
      exact Qualifier.le_trans (Qualifier.le_join_left _ _)
        (le_read_of_raise_settled (hv v (by simp [Relation.vars, Atom.asVar?])) h2)
  | geq v q => exact le_read_of_raise_settled (hv v (by simp [Relation.vars])) h

theorem stepChain_cons (env : Array Qualifier) (v : Nat) (rest : List Nat) :
    stepChain env (v :: rest) = if (read env (.var v)).isWild then
      sweep (fun env w => raise env (.var w) .wild) rest (env, false) else (env, false) := rfl

theorem raiseWild_rising : Rising fun env (w : Nat) => raise env (.var w) .wild :=
  raise_rising.comap fun w => (.var w, .wild)

theorem stepChain_rising : Rising stepChain where
  below env ch := by
    cases ch with
    | nil => exact Below.refl env
    | cons v rest =>
      rw [stepChain_cons]
      split
      · exact raiseWild_rising.below_sweep rest (env, false)
      · exact Below.refl env
  settled env ch h := by
    cases ch with
    | nil => rfl
    | cons v rest =>
      rw [stepChain_cons] at h ⊢
      by_cases hw : (read env (.var v)).isWild
      · rw [if_pos hw] at h ⊢
        exact (raiseWild_rising.sweep_settled h).2.1
      · rw [if_neg hw]
  heavier env ch h := by
    cases ch with
    | nil => cases h
    | cons v rest =>
      rw [stepChain_cons] at h ⊢
      by_cases hw : (read env (.var v)).isWild
      · rw [if_pos hw] at h ⊢
        exact (raiseWild_rising.sweep_heavier h).resolve_left (by simp)
      · rw [if_neg hw] at h; cases h

theorem Below.stepChain {ch : List Nat} (h : Below env p) (hch : ChainHolds p ch) :
    Below (stepChain env ch).1 p := by
  cases ch with
  | nil => exact h
  | cons v rest =>
    rw [stepChain_cons]
    split
    · next hw =>
      have hpv : read p (.var v) = .wild :=
        Qualifier.eq_wild_of_wild_le (Qualifier.isWild_iff.1 hw ▸ h.2 v)
      exact sweep_induct (fun e => Below e p)
        (fun e w hw' he => he.raise fun u hu => by
          cases hu; rw [hch v rfl hpv w (List.mem_cons_of_mem v hw')]; exact Nat.le_refl _) h
    · exact h

theorem chainHolds_of_stepChain_settled {ch : List Nat} (h : (stepChain env ch).2 = false)
    (hv : ∀ v ∈ ch, v < env.size) : ChainHolds env ch := by
  cases ch with
  | nil => intro v hv; cases hv
  | cons v rest =>
    intro u hu hwild w hw
    simp only [List.head?_cons, Option.mem_def, Option.some.injEq] at hu
    subst hu
    rw [stepChain_cons, if_pos (Qualifier.isWild_iff.2 hwild)] at h
    rcases List.mem_cons.1 hw with rfl | hw
    · exact hwild
    · exact Qualifier.eq_wild_of_wild_le
        (le_read_of_raise_settled (hv w (List.mem_cons_of_mem _ hw))
          ((raiseWild_rising.sweep_settled h).2.2 w hw))

/-! ## Passes -/

theorem pass_eq (cs : ConstraintStore) (env : Array Qualifier) :
    cs.pass env = sweep stepChain cs.chains
      (sweep (fun env e => stepRelation env e.2.relation) cs.entries (env, false)) := rfl

theorem entryStep_rising :
    Rising fun env (e : Nat × Constraint) => stepRelation env e.2.relation :=
  stepRelation_rising.comap fun e : Nat × Constraint => e.2.relation

theorem below_pass (cs : ConstraintStore) (env : Array Qualifier) : Below env (cs.pass env).1 := by
  rw [pass_eq]
  exact (entryStep_rising.below_sweep cs.entries (env, false)).trans
    (stepChain_rising.below_sweep cs.chains _)

/-- No pass climbs above a closed environment above it. -/
theorem Below.pass (h : Below env p) (hp : cs.Closed p) : Below (cs.pass env).1 p := by
  rw [pass_eq]
  refine sweep_induct (fun e => Below e p) (fun e ch hch he => he.stepChain (hp.chains ch hch)) ?_
  exact sweep_induct (fun e => Below e p)
    (fun e c hc he => he.stepRelation (hp.relations c hc)) h

/-- A pass that changes nothing ends where it began, and there the store is closed. -/
theorem pass_settled (h : (cs.pass env).2 = false) :
    (cs.pass env).1 = env ∧ (cs.Scoped → env.size = cs.numVars → cs.Closed env) := by
  rw [pass_eq] at h ⊢
  obtain ⟨hacc, hres, hchains⟩ := stepChain_rising.sweep_settled h
  obtain ⟨-, hres', hentries⟩ := entryStep_rising.sweep_settled hacc
  rw [hres'] at hchains
  refine ⟨hres.trans hres', fun hs hsize => ⟨fun e he => ?_, fun ch hch => ?_⟩⟩
  · exact holds_of_stepRelation_settled (hentries e he) fun v hv => hsize ▸ hs.1 e he v hv
  · exact chainHolds_of_stepChain_settled (hchains ch hch) fun v hv => hsize ▸ hs.2 ch hch v hv

theorem weight_lt_pass (h : (cs.pass env).2 = true) : weight env < weight (cs.pass env).1 := by
  rw [pass_eq] at h ⊢
  have hin := entryStep_rising.below_sweep cs.entries (env, false)
  rcases stepChain_rising.sweep_heavier h with hacc | hlt
  · exact Nat.lt_of_lt_of_le ((entryStep_rising.sweep_heavier hacc).resolve_left (by simp))
      (stepChain_rising.below_sweep cs.chains _).weight_le
  · exact Nat.lt_of_le_of_lt hin.weight_le hlt

/-! ## Runs of passes -/

theorem iterate_zero (cs : ConstraintStore) (env : Array Qualifier) (n : Nat) :
    cs.iterate 0 env n = ((cs.pass env).1, n + 1) := by
  rw [iterate]
  rcases cs.pass env with ⟨env', c⟩
  cases c <;> rfl

theorem iterate_succ (cs : ConstraintStore) (k : Nat) (env : Array Qualifier) (n : Nat) :
    cs.iterate (k + 1) env n =
      if (cs.pass env).2 then cs.iterate k (cs.pass env).1 (n + 1) else ((cs.pass env).1, n + 1) := by
  rw [iterate]

theorem below_iterate (cs : ConstraintStore) (fuel : Nat) :
    ∀ env n, Below env (cs.iterate fuel env n).1 := by
  induction fuel with
  | zero => intro env n; rw [iterate_zero]; exact below_pass cs env
  | succ k ih =>
    intro env n
    rw [iterate_succ]
    split
    · exact (below_pass cs env).trans (ih _ _)
    · exact below_pass cs env

theorem Below.iterate (hp : cs.Closed p) (fuel : Nat) :
    ∀ env n, Below env p → Below (cs.iterate fuel env n).1 p := by
  induction fuel with
  | zero => intro env n h; rw [iterate_zero]; exact h.pass hp
  | succ k ih =>
    intro env n h
    rw [iterate_succ]
    split
    · exact ih _ _ (h.pass hp)
    · exact h.pass hp

/-- With at least as much fuel as the weight can still grow, a run of passes over a store that
names only registered slots ends in a closed environment. -/
theorem closed_iterate (hs : cs.Scoped) (fuel : Nat) :
    ∀ env n, env.size = cs.numVars → 3 * env.size ≤ fuel + weight env →
      cs.Closed (cs.iterate fuel env n).1 := by
  induction fuel with
  | zero =>
    intro env n hsize hfuel
    rw [iterate_zero]
    cases hflag : (cs.pass env).2
    · rw [(pass_settled hflag).1]; exact (pass_settled hflag).2 hs hsize
    · have hlt := weight_lt_pass hflag
      have hle := weight_le (cs.pass env).1
      rw [← (below_pass cs env).1] at hle
      omega
  | succ k ih =>
    intro env n hsize hfuel
    rw [iterate_succ]
    cases hflag : (cs.pass env).2
    · rw [if_neg (by simp)]
      rw [(pass_settled hflag).1]; exact (pass_settled hflag).2 hs hsize
    · rw [if_pos rfl]
      have hlt := weight_lt_pass hflag
      have hsize' := (below_pass cs env).1
      exact ih _ _ (hsize' ▸ hsize) (by rw [← hsize']; omega)

theorem leastClosed_iterate (hs : cs.Scoped) {fuel : Nat} {env : Array Qualifier} (n : Nat)
    (hsize : env.size = cs.numVars) (hfuel : 3 * env.size ≤ fuel + weight env) :
    cs.LeastClosed env (cs.iterate fuel env n).1 where
  above := below_iterate cs fuel env n
  closed := closed_iterate hs fuel env n hsize hfuel
  least _ hp hc := Below.iterate hc fuel env n hp

/-! ## Solving -/

/-- The slot an `unregisteredAtom` error reports is named by the store: by the constraint with the
reported id, or by a chain when the error reports none. -/
def Names (cs : ConstraintStore) : Option Nat → Nat → Prop
  | some id, v => ∃ c, (id, c) ∈ cs.entries ∧ v ∈ c.relation.vars
  | none, v => ∃ ch ∈ cs.chains, v ∈ ch

theorem sanity_eq_ok_iff : cs.sanity = .ok () ↔ cs.Scoped := by
  simp only [sanity]
  constructor
  · intro h
    split at h
    · cases h
    · next hbad =>
      split at h
      · cases h
      · next hch =>
        rw [List.findSome?_eq_none_iff] at hbad hch
        refine ⟨fun e he v hv => ?_, fun ch hc v hv => ?_⟩
        · have hfind := hbad e he
          rw [Option.map_eq_none_iff, List.find?_eq_none] at hfind
          simpa [isRegistered, numVars] using hfind v hv
        · have hfind := hch ch hc
          rw [List.find?_eq_none] at hfind
          simpa [isRegistered, numVars] using hfind v hv
  · rintro ⟨he, hc⟩
    have hbad : (cs.entries.findSome? fun e => (e.2.relation.vars.find? fun v => !cs.isRegistered v).map
        fun v => Error.unregisteredAtom (some e.1) v) = none := by
      refine List.findSome?_eq_none_iff.2 fun e he' => ?_
      rw [Option.map_eq_none_iff, List.find?_eq_none]
      intro v hv
      simpa [isRegistered, numVars] using he e he' v hv
    have hch : (cs.chains.findSome? fun ch => ch.find? fun v => !cs.isRegistered v) = none := by
      refine List.findSome?_eq_none_iff.2 fun ch hch => ?_
      rw [List.find?_eq_none]
      intro v hv
      simpa [isRegistered, numVars] using hc ch hch v hv
    rw [hbad, hch]

theorem sanity_eq_error {err : Error} (h : cs.sanity = .error err) :
    ∃ c v, err = .unregisteredAtom c v ∧ cs.numVars ≤ v ∧ cs.Names c v := by
  simp only [sanity] at h
  split at h
  · next err' hbad =>
    cases h
    obtain ⟨e, he, hsome⟩ := List.exists_of_findSome?_eq_some hbad
    obtain ⟨v, hfind, rfl⟩ := Option.map_eq_some_iff.1 hsome
    have hv := List.find?_some hfind
    simp only [isRegistered, Bool.not_eq_eq_eq_not, Bool.not_true, decide_eq_false_iff_not,
      Nat.not_lt] at hv
    exact ⟨some e.1, v, rfl, hv, e.2, he, List.mem_of_find?_eq_some hfind⟩
  · split at h
    · next v hch =>
      cases h
      obtain ⟨ch, hc, hfind⟩ := List.exists_of_findSome?_eq_some hch
      have hv := List.find?_some hfind
      simp only [isRegistered, Bool.not_eq_eq_eq_not, Bool.not_true, decide_eq_false_iff_not,
        Nat.not_lt] at hv
      exact ⟨none, v, rfl, hv, ch, hc, List.mem_of_find?_eq_some hfind⟩
    · cases h

theorem solve_of_scoped (hs : cs.Scoped) :
    cs.solve = .ok (⟨(cs.iterate (3 * cs.env.size + 1) cs.env 0).2,
      countChanged cs.env (cs.iterate (3 * cs.env.size + 1) cs.env 0).1⟩,
      { cs with env := (cs.iterate (3 * cs.env.size + 1) cs.env 0).1 }) := by
  simp only [solve, sanity_eq_ok_iff.2 hs]
  rfl

theorem solve_of_sanity_error {err : Error} (h : cs.sanity = .error err) : cs.solve = .error err := by
  simp only [solve, h]
  rfl

theorem scoped_of_solve_ok {r : SolveStats × ConstraintStore} (h : cs.solve = .ok r) : cs.Scoped := by
  rw [← sanity_eq_ok_iff]
  cases hs : cs.sanity with
  | error err => rw [solve_of_sanity_error hs] at h; cases h
  | ok u => rfl

theorem leastClosed_solve {r : SolveStats × ConstraintStore} (h : cs.solve = .ok r) :
    r.2 = { cs with env := r.2.env } ∧ cs.LeastClosed cs.env r.2.env := by
  have hs := scoped_of_solve_ok h
  rw [solve_of_scoped hs] at h
  cases h
  refine ⟨rfl, leastClosed_iterate hs 0 rfl ?_⟩
  omega

theorem length_filter_zip_ne (l₁ l₂ : List Qualifier) (h : l₁.length = l₂.length) :
    ((l₁.zip l₂).filter fun x => x.1 != x.2).length =
      ((List.range l₁.length).filter fun v => l₁[v]?.getD .ptr ≠ l₂[v]?.getD .ptr).length := by
  induction l₁ generalizing l₂ with
  | nil => simp
  | cons a l₁ ih =>
    cases l₂ with
    | nil => simp at h
    | cons b l₂ =>
      simp only [List.length_cons, Nat.add_right_cancel_iff] at h
      simp only [List.zip_cons_cons, List.length_cons, List.range_succ_eq_map, List.filter_cons,
        List.filter_map, Function.comp_def, List.getElem?_cons_succ, List.getElem?_cons_zero,
        Option.getD_some]
      by_cases hab : a = b <;> simp [hab, ih l₂ h]

theorem countChanged_eq {before after : Array Qualifier} (h : before.size = after.size) :
    countChanged before after =
      ((List.range before.size).filter fun v => read before (.var v) ≠ read after (.var v)).length := by
  have hlen : before.toList.length = after.toList.length := by simpa using h
  simpa [countChanged, read] using length_filter_zip_ne before.toList after.toList hlen

theorem Closed.mono {cs cs' : ConstraintStore} (h : cs'.Closed p)
    (hrel : ∀ e ∈ cs.entries, ∃ e' ∈ cs'.entries, e'.2.relation = e.2.relation)
    (hch : ∀ ch ∈ cs.chains, ch ∈ cs'.chains) : cs.Closed p where
  relations e he := by
    obtain ⟨e', he', hrel'⟩ := hrel e he
    exact hrel' ▸ h.relations e' he'
  chains ch hc := h.chains ch (hch ch hc)

theorem Below.solve {cs cs' : ConstraintStore} {r r' : SolveStats × ConstraintStore}
    (hrel : ∀ e ∈ cs.entries, ∃ e' ∈ cs'.entries, e'.2.relation = e.2.relation)
    (hch : ∀ ch ∈ cs.chains, ch ∈ cs'.chains) (hstart : Below cs.env cs'.env)
    (h : cs.solve = .ok r) (h' : cs'.solve = .ok r') : Below r.2.env r'.2.env := by
  have hl := (leastClosed_solve h).2
  have hl' := (leastClosed_solve h').2
  exact hl.least _ (hstart.trans hl'.above) (hl'.closed.mono hrel hch)

/-- A solve refuses exactly the stores naming an unregistered slot; otherwise it replaces only the
environment, by the least closed one above it. -/
theorem solve_least_closed (cs : ConstraintStore) :
    ((∃ err, cs.solve = .error err) ↔ ¬ cs.Scoped) ∧
    (∀ err, cs.solve = .error err →
      ∃ c v, err = .unregisteredAtom c v ∧ cs.numVars ≤ v ∧ cs.Names c v) ∧
    (cs.Scoped → ∃ st env, cs.solve = .ok (st, { cs with env := env }) ∧
      cs.LeastClosed cs.env env ∧
      st.changed = ((List.range cs.numVars).filter fun v => read cs.env (.var v) ≠ read env (.var v)).length) ∧
    (∀ cs' : ConstraintStore,
      (∀ e ∈ cs.entries, ∃ e' ∈ cs'.entries, e'.2.relation = e.2.relation) →
      (∀ ch ∈ cs.chains, ch ∈ cs'.chains) → Below cs.env cs'.env →
      ∀ r r', cs.solve = .ok r → cs'.solve = .ok r' → Below r.2.env r'.2.env) ∧
    (∀ cs' : ConstraintStore,
      (∀ e ∈ cs.entries, ∃ e' ∈ cs'.entries, e'.2.relation = e.2.relation) →
      (∀ e' ∈ cs'.entries, ∃ e ∈ cs.entries, e.2.relation = e'.2.relation) →
      (∀ ch, ch ∈ cs.chains ↔ ch ∈ cs'.chains) → cs'.env = cs.env →
      ∀ r, cs.solve = .ok r → ∃ r', cs'.solve = .ok r' ∧ r'.2.env = r.2.env) := by
  refine ⟨⟨?_, ?_⟩, ?_, ?_, ?_, ?_⟩
  · rintro ⟨err, h⟩ hs
    rw [solve_of_scoped hs] at h
    cases h
  · intro hs
    cases h : cs.sanity with
    | error err => exact ⟨err, solve_of_sanity_error h⟩
    | ok u => exact absurd (sanity_eq_ok_iff.1 h) hs
  · intro err h
    cases hs : cs.sanity with
    | error err' =>
      rw [solve_of_sanity_error hs] at h
      cases h
      exact sanity_eq_error hs
    | ok u => rw [solve_of_scoped (sanity_eq_ok_iff.1 hs)] at h; cases h
  · intro hs
    have hl := leastClosed_iterate hs 0 rfl
      (by omega : 3 * cs.env.size ≤ 3 * cs.env.size + 1 + weight cs.env)
    refine ⟨_, _, solve_of_scoped hs, hl, ?_⟩
    exact countChanged_eq hl.above.1
  · intro cs' hrel hch hstart r r' h h'
    exact Below.solve hrel hch hstart h h'
  · intro cs' hrel hrel' hch henv r h
    have hs := scoped_of_solve_ok h
    have hs' : cs'.Scoped := by
      refine ⟨fun e' he' v hv => ?_, fun ch hc v hv => ?_⟩
      · obtain ⟨e, he, heq⟩ := hrel' e' he'
        simpa [numVars, henv] using hs.1 e he v (heq ▸ hv)
      · simpa [numVars, henv] using hs.2 ch ((hch ch).2 hc) v hv
    refine ⟨_, solve_of_scoped hs', ?_⟩
    have hle := Below.solve hrel (fun ch hc => (hch ch).1 hc) (henv ▸ Below.refl _) h
      (solve_of_scoped hs')
    have hge := Below.solve hrel' (fun ch hc => (hch ch).2 hc) (henv ▸ Below.refl _)
      (solve_of_scoped hs') h
    exact (hle.antisymm hge).symm

end ConstraintStore

end CheckedPointers
