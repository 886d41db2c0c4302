import CheckedPointers.Proofs.StoreSteps

/-!
# How many passes a solve makes

A solve repeats passes over the constraints and chains until one changes nothing, and it counts
that last pass too. Read without the solver's fuel, the passes from the starting environment form
an endless sequence (`ConstraintStore.passesFrom`). The solver stops at the first pass of it that
raises no slot, and no later pass raises one either, so the fuel is never what stops it.

Every pass that raises a slot makes the environment strictly heavier, so there are at most as many
of them as the heights the slots gained in all, which is at most three per slot
(`ConstraintStore.solve_pass_count`). Solving an environment a solve produced takes one pass and
changes nothing; the bound of four passes per slot that the solver documents holds as soon as there
is a slot, and fails only for a store without any, which still takes its one pass.
-/

namespace CheckedPointers

namespace ConstraintStore

variable {cs : ConstraintStore} {env env' : Array Qualifier}

/-- The environment after `k` passes from `env`, however many of them change something. -/
def passesFrom (cs : ConstraintStore) (env : Array Qualifier) (k : Nat) : Array Qualifier :=
  (fun e => (cs.pass e).1)^[k] env

@[simp] theorem passesFrom_zero (cs : ConstraintStore) (env : Array Qualifier) :
    cs.passesFrom env 0 = env := rfl

theorem passesFrom_succ (cs : ConstraintStore) (env : Array Qualifier) (k : Nat) :
    cs.passesFrom env (k + 1) = cs.passesFrom (cs.pass env).1 k :=
  Function.iterate_succ_apply _ k env

theorem passesFrom_succ' (cs : ConstraintStore) (env : Array Qualifier) (k : Nat) :
    cs.passesFrom env (k + 1) = (cs.pass (cs.passesFrom env k)).1 :=
  Function.iterate_succ_apply' _ k env

theorem size_passesFrom (cs : ConstraintStore) (env : Array Qualifier) (k : Nat) :
    (cs.passesFrom env k).size = env.size := by
  induction k with
  | zero => rfl
  | succ k ih => rw [passesFrom_succ', ← (below_pass cs _).1, ih]

/-- Some slot is strictly higher in `after` than in `before`. -/
def Raises (before after : Array Qualifier) : Prop :=
  ∃ v, read before (.var v) < read after (.var v)

theorem Below.weight_lt_iff (h : Below env env') : weight env < weight env' ↔ Raises env env' := by
  constructor
  · intro hlt
    unfold weight at hlt
    rw [← h.1] at hlt
    obtain ⟨v, -, hv⟩ := Finset.exists_lt_of_sum_lt hlt
    exact ⟨v, hv⟩
  · rintro ⟨v, hv⟩
    -- past the end both read `ptr`, so the raised slot is a slot of the environment
    have hsize : v < env.size := by
      by_contra hn
      rw [read_of_size_le (by omega), read_of_size_le (by rw [← h.1]; omega)] at hv
      exact Nat.lt_irrefl _ hv
    exact h.weight_lt hsize hv

theorem Below.weight_sub (h : Below env env') :
    weight env' - weight env =
      ∑ v ∈ Finset.range env.size, ((read env' (.var v)).height - (read env (.var v)).height) := by
  unfold weight
  rw [Finset.sum_tsub_distrib _ fun v _ => h.2 v, h.1]

theorem pass_flag_iff_raises : (cs.pass env).2 = true ↔ Raises env (cs.pass env).1 := by
  rw [← (below_pass cs env).weight_lt_iff]
  refine ⟨weight_lt_pass, fun hlt => ?_⟩
  cases hflag : (cs.pass env).2
  · rw [(pass_settled hflag).1] at hlt
    exact absurd hlt (Nat.lt_irrefl _)
  · rfl

theorem passesFrom_stable {n : Nat} (h : (cs.pass (cs.passesFrom env n)).2 = false) :
    ∀ k, n ≤ k → cs.passesFrom env k = cs.passesFrom env n := by
  intro k hk
  induction k, hk using Nat.le_induction with
  | base => rfl
  | succ k _ ih => rw [passesFrom_succ', ih, (pass_settled h).1]

theorem iterate_of_settled (h : (cs.pass env).2 = false) (fuel n : Nat) :
    cs.iterate fuel env n = (env, n + 1) := by
  cases fuel with
  | zero => rw [iterate_zero, (pass_settled h).1]
  | succ k => rw [iterate_succ, if_neg (by simp [h]), (pass_settled h).1]

theorem iterate_eq_passesFrom (cs : ConstraintStore) (fuel : Nat) :
    ∀ env n, 3 * env.size ≤ fuel + weight env →
    ∃ m, cs.iterate fuel env n = (cs.passesFrom env m, n + m + 1) ∧
      (∀ k < m, (cs.pass (cs.passesFrom env k)).2 = true) ∧
      (cs.pass (cs.passesFrom env m)).2 = false ∧ weight env + m ≤ weight (cs.passesFrom env m) := by
  induction fuel with
  | zero =>
    intro env n hfuel
    cases hflag : (cs.pass env).2
    · exact ⟨0, iterate_of_settled hflag 0 n, fun k hk => absurd hk (Nat.not_lt_zero k), hflag,
        Nat.le_refl _⟩
    · -- a raising pass would take the weight past three per slot
      have hlt := weight_lt_pass hflag
      have hle := weight_le (cs.pass env).1
      rw [← (below_pass cs env).1] at hle
      omega
  | succ fuel ih =>
    intro env n hfuel
    cases hflag : (cs.pass env).2
    · exact ⟨0, iterate_of_settled hflag (fuel + 1) n, fun k hk => absurd hk (Nat.not_lt_zero k),
        hflag, Nat.le_refl _⟩
    · have hlt := weight_lt_pass hflag
      have hsize := (below_pass cs env).1
      obtain ⟨m, hrun, hraise, hlast, hweight⟩ := ih (cs.pass env).1 (n + 1) (by rw [← hsize]; omega)
      refine ⟨m + 1, ?_, fun k hk => ?_, ?_, ?_⟩
      · rw [iterate_succ, if_pos hflag, hrun, passesFrom_succ]
        congr 1
        omega
      · cases k with
        | zero => exact hflag
        | succ k => rw [passesFrom_succ]; exact hraise k (by omega)
      · rw [passesFrom_succ]; exact hlast
      · rw [passesFrom_succ]; omega

theorem countChanged_self (env : Array Qualifier) : countChanged env env = 0 := by
  rw [countChanged_eq rfl]
  simp

theorem solve_of_closed (hs : cs.Scoped) (hc : cs.Closed cs.env) : cs.solve = .ok (⟨1, 0⟩, cs) := by
  have hback : Below (cs.pass cs.env).1 cs.env := (Below.refl cs.env).pass hc
  have hflag : (cs.pass cs.env).2 = false := by
    cases h : (cs.pass cs.env).2
    · rfl
    · exact absurd hback.weight_le (Nat.not_le.2 (weight_lt_pass h))
  rw [solve_of_scoped hs, iterate_of_settled hflag, countChanged_self]

/-- The passes of a solve before its last are exactly those that raised a slot, at most three per
slot, and solving the result again takes one pass. -/
theorem solve_pass_count {st : SolveStats} {cs' : ConstraintStore} (h : cs.solve = .ok (st, cs')) :
    (∃ n, st.passes = n + 1 ∧
      (∀ k, Raises (cs.passesFrom cs.env k) (cs.passesFrom cs.env (k + 1)) ↔ k < n) ∧
      cs'.env = cs.passesFrom cs.env n ∧
      n ≤ ∑ v ∈ Finset.range cs.numVars,
        ((read cs'.env (.var v)).height - (read cs.env (.var v)).height) ∧
      ∑ v ∈ Finset.range cs.numVars,
        ((read cs'.env (.var v)).height - (read cs.env (.var v)).height) ≤ 3 * cs.numVars) ∧
    cs'.solve = .ok (⟨1, 0⟩, cs') ∧
    (1 ≤ cs.numVars → st.passes ≤ 4 * cs.numVars) := by
  have hs := scoped_of_solve_ok h
  obtain ⟨-, hl⟩ := leastClosed_solve h
  obtain ⟨m, hrun, hraise, hlast, hweight⟩ :=
    iterate_eq_passesFrom cs (3 * cs.env.size + 1) cs.env 0 (by omega)
  rw [solve_of_scoped hs, hrun] at h
  simp only [Except.ok.injEq, Prod.mk.injEq] at h
  obtain ⟨rfl, rfl⟩ := h
  have hbelow : Below cs.env (cs.passesFrom cs.env m) := by
    simpa [hrun] using below_iterate cs (3 * cs.env.size + 1) cs.env 0
  -- the gained heights are the gained weight, which each raising pass added to
  have hsum := hbelow.weight_sub
  have hcap := weight_le (cs.passesFrom cs.env m)
  rw [← hbelow.1] at hcap
  refine ⟨⟨m, by simp, fun k => ⟨fun hk => ?_, fun hk => ?_⟩, rfl, ?_, ?_⟩, ?_, fun hn => ?_⟩
  · -- from the first settled pass on, nothing moves
    by_contra hge
    obtain ⟨v, hv⟩ := hk
    rw [passesFrom_stable hlast (k + 1) (by omega), passesFrom_stable hlast k (by omega)] at hv
    exact Nat.lt_irrefl _ hv
  · rw [passesFrom_succ']
    exact pass_flag_iff_raises.1 (hraise k hk)
  · show m ≤ ∑ v ∈ Finset.range cs.env.size, _
    rw [← hsum]; omega
  · show ∑ v ∈ Finset.range cs.env.size, _ ≤ 3 * cs.env.size
    rw [← hsum]; omega
  · -- the solved store is closed by its environment and named by the same slots
    have hc : ({ cs with env := cs.passesFrom cs.env m } : ConstraintStore).Closed
        (cs.passesFrom cs.env m) := closed_withEnv_iff.2 (by simpa [hrun] using hl.closed)
    refine solve_of_closed ?_ hc
    simpa [Scoped, numVars, size_passesFrom] using hs
  · show 0 + m + 1 ≤ 4 * cs.env.size
    unfold numVars at hn
    omega

/-- Two slots equated, the second bounded by `arr`: the first pass raises the second slot, the
second pass the first through the equality, and the third changes nothing. -/
theorem solve_pass_count_of_equality :
    let cs := ((ConstraintStore.empty.fresh.2.fresh.2.addEq (.var 0) (.var 1) "" none).2.addGeq 1
      .arr "" none).2
    ∃ st cs', cs.solve = .ok (st, cs') ∧ st.passes = 3 ∧
      (∃ n, st.passes = n + 1 ∧
        (∀ k, Raises (cs.passesFrom cs.env k) (cs.passesFrom cs.env (k + 1)) ↔ k < n) ∧
        cs'.env = cs.passesFrom cs.env n ∧
        n ≤ ∑ v ∈ Finset.range cs.numVars,
          ((read cs'.env (.var v)).height - (read cs.env (.var v)).height) ∧
        ∑ v ∈ Finset.range cs.numVars,
          ((read cs'.env (.var v)).height - (read cs.env (.var v)).height) ≤ 3 * cs.numVars) ∧
      cs'.solve = .ok (⟨1, 0⟩, cs') ∧
      (1 ≤ cs.numVars → st.passes ≤ 4 * cs.numVars) := by
  intro cs
  have hpasses : (match cs.solve with
      | .ok r => r.1.passes == 3
      | .error _ => false) = true := by decide +kernel
  cases h : cs.solve with
  | error e => rw [h] at hpasses; cases hpasses
  | ok r =>
    obtain ⟨st, cs'⟩ := r
    rw [h] at hpasses
    exact ⟨st, cs', rfl, beq_iff_eq.1 hpasses, solve_pass_count h⟩

end ConstraintStore

end CheckedPointers
