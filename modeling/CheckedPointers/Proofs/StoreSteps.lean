import Mathlib.Logic.Relation
import CheckedPointers.Proofs.LeastFixpoint

/-!
# How the constraint store grows

Between two solves the store changes in three ways only (`StoreStep`): a fresh slot at `ptr`, a
constraint over registered slots, and a chain of registered slots whose outermost slot is at
`ptr`. A run of such steps (`Grows`) keeps every qualifier, constraint and chain already there
(`Extends`), and it keeps the store's invariants (`ConstraintStore.Wf`): constraints and chains name
registered slots, the reason of an array declaration stands only on a bound by `arr`, and each
slot lies at or below its value in every closed environment (`Sound`). Ids ascend below the next id
in every store, which carries that among its views (`idsAscend`). A run that adds no constraint
keeps a closed environment closed.

Whether an environment closes a store depends only on the qualifiers it gives the slots the store
names. So a solve of a well-formed store, which reaches the least closed environment above a sound
start, leaves a well-formed store again; so does a solve after a reset to `ptr`, whatever was
removed before it.
-/

namespace CheckedPointers

open ConstraintStore

theorem Relation.holds_congr {env env' : Array Qualifier} {r : Relation}
    (h : ∀ v ∈ r.vars, read env (.var v) = read env' (.var v)) : r.Holds env ↔ r.Holds env' := by
  rcases r with ⟨_ | a, _ | b⟩ | ⟨v, q⟩ <;> simp_all [Relation.Holds, Relation.vars, Atom.asVar?]

theorem chainHolds_congr {env env' : Array Qualifier} {ch : List Nat}
    (h : ∀ v ∈ ch, read env (.var v) = read env' (.var v)) : ChainHolds env ch ↔ ChainHolds env' ch := by
  have hhead : ∀ v ∈ ch.head?, v ∈ ch := fun v hv => List.mem_of_mem_head? hv
  constructor
  · intro hc v hv hw w hw'
    rw [← h w hw']
    exact hc v hv ((h v (hhead v hv)).trans hw) w hw'
  · intro hc v hv hw w hw'
    rw [h w hw']
    exact hc v hv ((h v (hhead v hv)).symm.trans hw) w hw'

namespace ConstraintStore

variable {cs cs' cs'' : ConstraintStore} {env env' p : Array Qualifier}

theorem read_push_ptr (env : Array Qualifier) (v : Nat) :
    read (env.push .ptr) (.var v) = read env (.var v) := by
  simp only [read, Array.getD_eq_getD_getElem?, Array.getElem?_push]
  split
  · next h => subst h; simp
  · rfl

theorem read_replicate_ptr (n v : Nat) : read (Array.replicate n Qualifier.ptr) (.var v) = .ptr := by
  simp only [read, Array.getD_eq_getD_getElem?, Array.getElem?_replicate]
  split <;> rfl

theorem read_ofFn (n : Nat) (p : Array Qualifier) (v : Nat) :
    read (Array.ofFn fun i : Fin n => read p (.var i)) (.var v) = if v < n then read p (.var v) else .ptr := by
  simp only [read, Array.getD_eq_getD_getElem?, Array.getElem?_ofFn]
  split <;> rfl

theorem Qualifier.ptr_le (q : Qualifier) : Qualifier.ptr ≤ q := Nat.zero_le _

theorem Closed.of_read_eq (hc : cs.Closed env) (h : ∀ v, read env' (.var v) = read env (.var v)) :
    cs.Closed env' where
  relations e he := (Relation.holds_congr fun v _ => (h v).symm).1 (hc.relations e he)
  chains ch hch := (chainHolds_congr fun v _ => (h v).symm).1 (hc.chains ch hch)

theorem Closed.of_read_eq_of_scoped (hs : cs.Scoped) (hc : cs.Closed env)
    (h : ∀ v < cs.numVars, read env' (.var v) = read env (.var v)) : cs.Closed env' where
  relations e he := (Relation.holds_congr fun v hv => (h v (hs.1 e he v hv)).symm).1 (hc.relations e he)
  chains ch hch := (chainHolds_congr fun v hv => (h v (hs.2 ch hch v hv)).symm).1 (hc.chains ch hch)

/-! ## Invariants -/

/-- The reason of an array declaration stands only on a bound `v ≥ arr`. -/
def ArrayReasonsBound (cs : ConstraintStore) : Prop :=
  ∀ e ∈ cs.entries, e.2.reason = Reason.arrayDecl → ∃ v, e.2.relation = .geq v .arr

/-- Ids ascend along the constraints and stay below the next id. -/
def IdsAscend (cs : ConstraintStore) : Prop :=
  (cs.entries.map Prod.fst).Pairwise (· < ·) ∧ ∀ e ∈ cs.entries, e.1 < cs.nextId

theorem idsAscend (cs : ConstraintStore) : cs.IdsAscend := ⟨cs.views.ascending, cs.views.below⟩

/-- Every slot lies at or below its value in every closed environment. -/
def Sound (cs : ConstraintStore) : Prop :=
  ∀ p : Array Qualifier, cs.Closed p → ∀ v, read cs.env (.var v) ≤ read p (.var v)

/-- The invariants every store of a session keeps. -/
structure Wf (cs : ConstraintStore) : Prop where
  registered : cs.Scoped
  arrayReasons : cs.ArrayReasonsBound
  sound : cs.Sound

/-- The store `cs'` keeps everything of `cs`: its slots with their qualifiers, its constraints and
chains in order, and hands out later ids. -/
structure Extends (cs cs' : ConstraintStore) : Prop where
  numVars_le : cs.numVars ≤ cs'.numVars
  read_eq : ∀ v, read cs'.env (.var v) = read cs.env (.var v)
  entries : cs.entries <+: cs'.entries
  chains : cs.chains <+: cs'.chains
  nextId_le : cs.nextId ≤ cs'.nextId

theorem Extends.refl (cs : ConstraintStore) : Extends cs cs :=
  ⟨Nat.le_refl _, fun _ => rfl, List.prefix_refl _, List.prefix_refl _, Nat.le_refl _⟩

theorem Extends.trans (h : Extends cs cs') (h' : Extends cs' cs'') : Extends cs cs'' :=
  ⟨Nat.le_trans h.numVars_le h'.numVars_le, fun v => (h'.read_eq v).trans (h.read_eq v),
    h.entries.trans h'.entries, h.chains.trans h'.chains, Nat.le_trans h.nextId_le h'.nextId_le⟩

theorem Extends.closed (h : Extends cs cs') (hc : cs'.Closed p) : cs.Closed p :=
  hc.mono (fun e he => ⟨e, h.entries.subset he, rfl⟩) fun _ hch => h.chains.subset hch

theorem Extends.sound (h : Extends cs cs') (hs : cs.Sound) : cs'.Sound := by
  intro p hc v
  rw [h.read_eq v]
  exact hs p (h.closed hc) v

/-! ## The operations of a store -/

@[simp] theorem fresh_fst (cs : ConstraintStore) : cs.fresh.1 = cs.numVars := rfl
@[simp] theorem fresh_env (cs : ConstraintStore) : cs.fresh.2.env = cs.env.push .ptr := rfl
@[simp] theorem fresh_entries (cs : ConstraintStore) : cs.fresh.2.entries = cs.entries := rfl
@[simp] theorem fresh_chains (cs : ConstraintStore) : cs.fresh.2.chains = cs.chains := rfl
@[simp] theorem fresh_nextId (cs : ConstraintStore) : cs.fresh.2.nextId = cs.nextId := rfl

@[simp] theorem numVars_fresh (cs : ConstraintStore) : cs.fresh.2.numVars = cs.numVars + 1 := by
  simp [numVars]

@[simp] theorem registerChain_env (cs : ConstraintStore) (ch : List Nat) :
    (cs.registerChain ch).env = cs.env := by
  unfold registerChain; split <;> rfl

@[simp] theorem registerChain_entries (cs : ConstraintStore) (ch : List Nat) :
    (cs.registerChain ch).entries = cs.entries := by
  unfold registerChain; split <;> rfl

@[simp] theorem registerChain_nextId (cs : ConstraintStore) (ch : List Nat) :
    (cs.registerChain ch).nextId = cs.nextId := by
  unfold registerChain; split <;> rfl

theorem registerChain_chains (cs : ConstraintStore) (ch : List Nat) :
    (cs.registerChain ch).chains = if 1 < ch.length then cs.chains ++ [ch] else cs.chains := by
  unfold registerChain; split <;> rfl

theorem idOf?_eq (cs : ConstraintStore) (r : Relation) :
    cs.idOf? r = (cs.entries.find? fun e => e.2.relation == r).map Prod.fst :=
  cs.views.index r

theorem constraintsOf_eq (cs : ConstraintStore) (v : Nat) :
    cs.constraintsOf v = (cs.entries.filter fun e => e.2.relation.vars.contains v).map Prod.fst :=
  cs.views.owners v

section Push

variable (cs : ConstraintStore) (c : Constraint) (h : cs.index.find? c.relation = none)

@[simp] theorem push_env : (cs.push c h).env = cs.env := rfl
@[simp] theorem push_entries : (cs.push c h).entries = cs.entries ++ [(cs.nextId, c)] := rfl
@[simp] theorem push_chains : (cs.push c h).chains = cs.chains := rfl
@[simp] theorem push_nextId : (cs.push c h).nextId = cs.nextId + 1 := rfl

end Push

theorem add_cases (cs : ConstraintStore) (r : Relation) (reason : String) (loc : Option SourceLoc) :
    (cs.add r reason loc).2 = cs ∨ ∃ h, (cs.add r reason loc).2 = cs.push ⟨r, reason, loc⟩ h := by
  unfold add
  split
  · exact .inl rfl
  · split
    · exact .inl rfl
    · next h => exact .inr ⟨h, rfl⟩

@[simp] theorem add_env (cs : ConstraintStore) (r : Relation) (reason : String) (loc : Option SourceLoc) :
    (cs.add r reason loc).2.env = cs.env := by
  rcases add_cases cs r reason loc with h | ⟨_, h⟩
  · rw [h]
  · rw [h, push_env]

@[simp] theorem add_chains (cs : ConstraintStore) (r : Relation) (reason : String)
    (loc : Option SourceLoc) : (cs.add r reason loc).2.chains = cs.chains := by
  rcases add_cases cs r reason loc with h | ⟨_, h⟩
  · rw [h]
  · rw [h, push_chains]

theorem idOf?_eq_none_iff {r : Relation} : cs.idOf? r = none ↔ ∀ e ∈ cs.entries, e.2.relation ≠ r := by
  simp only [idOf?_eq, Option.map_eq_none_iff, List.find?_eq_none, beq_iff_eq]

theorem index_find?_of_new {r : Relation} (hnew : ∀ e ∈ cs.entries, e.2.relation ≠ r) :
    cs.index.find? r = none :=
  idOf?_eq_none_iff.2 hnew

theorem add_of_new {r : Relation} (hr : ∀ a b, r ≠ .eq (.const a) (.const b))
    (hnew : ∀ e ∈ cs.entries, e.2.relation ≠ r) (reason : String) (loc : Option SourceLoc) :
    (cs.add r reason loc).2 = cs.push ⟨r, reason, loc⟩ (index_find?_of_new hnew) := by
  have hid : cs.idOf? r = none := index_find?_of_new hnew
  unfold add
  split
  · next a b => exact absurd rfl (hr a b)
  · split
    · next h => rw [hid] at h; cases h
    · rfl

@[simp] theorem reset_env (cs : ConstraintStore) : cs.reset.env = Array.replicate cs.env.size .ptr := rfl
@[simp] theorem reset_entries (cs : ConstraintStore) : cs.reset.entries = cs.entries := rfl
@[simp] theorem reset_chains (cs : ConstraintStore) : cs.reset.chains = cs.chains := rfl
@[simp] theorem reset_nextId (cs : ConstraintStore) : cs.reset.nextId = cs.nextId := rfl
@[simp] theorem numVars_reset (cs : ConstraintStore) : cs.reset.numVars = cs.numVars := by
  simp [numVars]

/-- The code numbers slots and constraints with 32-bit words; below `2^32` they keep apart. -/
theorem toUInt32_inj_of_lt {x y : Nat} (hx : x < 2 ^ 32) (hy : y < 2 ^ 32) (h : x.toUInt32 = y.toUInt32) :
    x = y := by
  have h' := congrArg UInt32.toNat h
  simp only [Nat.toUInt32_eq, UInt32.toNat_ofNat'] at h'
  omega

/-! ## Steps -/

/-- The ways the store changes between solves. -/
inductive StoreStep : ConstraintStore → ConstraintStore → Prop
  /-- A fresh slot at `ptr`. -/
  | fresh (cs : ConstraintStore) : StoreStep cs cs.fresh.2
  /-- A constraint over registered slots; the reason of an array declaration only on `v ≥ arr`. -/
  | add (cs : ConstraintStore) (r : Relation) (reason : String) (loc : Option SourceLoc)
      (hv : ∀ v ∈ r.vars, v < cs.numVars) (hr : reason = Reason.arrayDecl → ∃ v, r = .geq v .arr) :
      StoreStep cs (cs.add r reason loc).2
  /-- A chain of registered slots whose outermost slot is at `ptr`. -/
  | chain (cs : ConstraintStore) (ch : List Nat) (hv : ∀ v ∈ ch, v < cs.numVars)
      (hhead : ∀ v ∈ ch.head?, read cs.env (.var v) = .ptr) : StoreStep cs (cs.registerChain ch)

/-- Runs of store steps. -/
def Grows : ConstraintStore → ConstraintStore → Prop := Relation.ReflTransGen StoreStep

theorem StoreStep.extends (h : StoreStep cs cs') : Extends cs cs' := by
  cases h with
  | fresh => exact ⟨by simp, fun v => read_push_ptr _ v, by simp, by simp, by simp⟩
  | add r reason loc hv hr =>
    rcases add_cases cs r reason loc with h | ⟨_, h⟩ <;> rw [h]
    · exact Extends.refl cs
    · exact ⟨Nat.le_refl _, fun _ => rfl, by simp, List.prefix_refl _, by simp⟩
  | chain ch hv hhead =>
    refine ⟨by simp [numVars], fun _ => by simp, by simp, ?_, by simp⟩
    rw [registerChain_chains]
    split
    · exact List.prefix_append _ _
    · exact List.prefix_refl _

theorem mem_add_entries {r : Relation} {reason : String} {loc : Option SourceLoc}
    {e : Nat × Constraint} (he : e ∈ (cs.add r reason loc).2.entries) :
    e ∈ cs.entries ∨ e = (cs.nextId, ⟨r, reason, loc⟩) := by
  rcases add_cases cs r reason loc with h | ⟨_, h⟩ <;> rw [h] at he
  · exact .inl he
  · simpa using he

theorem StoreStep.scoped (h : StoreStep cs cs') (hs : cs.Scoped) : cs'.Scoped := by
  have hle := h.extends.numVars_le
  cases h with
  | fresh => exact ⟨fun e he v hv => Nat.lt_of_lt_of_le (hs.1 e he v hv) hle,
      fun ch hch v hv => Nat.lt_of_lt_of_le (hs.2 ch hch v hv) hle⟩
  | add r reason loc hv hr =>
    refine ⟨fun e he v hv' => ?_, fun ch hch v hv' => ?_⟩
    · rcases mem_add_entries he with he | rfl
      · exact Nat.lt_of_lt_of_le (hs.1 e he v hv') hle
      · exact Nat.lt_of_lt_of_le (hv v hv') hle
    · exact Nat.lt_of_lt_of_le (hs.2 ch (by simpa using hch) v hv') hle
  | chain ch hv hhead =>
    refine ⟨fun e he v hv' => Nat.lt_of_lt_of_le (hs.1 e (by simpa using he) v hv') hle,
      fun c hc v hv' => ?_⟩
    rw [registerChain_chains] at hc
    split at hc
    · rcases List.mem_append.1 hc with hc | hc
      · exact Nat.lt_of_lt_of_le (hs.2 c hc v hv') hle
      · rw [List.mem_singleton.1 hc] at hv'
        exact Nat.lt_of_lt_of_le (hv v hv') hle
    · exact Nat.lt_of_lt_of_le (hs.2 c hc v hv') hle

theorem StoreStep.arrayReasons (h : StoreStep cs cs') (ha : cs.ArrayReasonsBound) :
    cs'.ArrayReasonsBound := by
  cases h with
  | fresh => exact ha
  | add r reason loc hv hr =>
    intro e he hreason
    rcases mem_add_entries he with he | rfl
    · exact ha e he hreason
    · exact hr hreason
  | chain ch hv hhead => simpa [ArrayReasonsBound] using ha

theorem StoreStep.wf (h : StoreStep cs cs') (hw : cs.Wf) : cs'.Wf :=
  ⟨h.scoped hw.registered, h.arrayReasons hw.arrayReasons, h.extends.sound hw.sound⟩

theorem StoreStep.closed (h : StoreStep cs cs') (hc : cs.Closed cs.env)
    (hlen : cs'.entries.length ≤ cs.entries.length) : cs'.Closed cs'.env := by
  cases h with
  | fresh =>
    exact (hc.of_read_eq fun v => read_push_ptr _ v).mono (fun e he => ⟨e, he, rfl⟩) fun _ h => h
  | add r reason loc hv hr =>
    rcases add_cases cs r reason loc with h | ⟨_, h⟩ <;> rw [h] at hlen ⊢
    · exact hc
    · simp at hlen
  | chain ch hv hhead =>
    refine ⟨fun e he => by simpa using hc.relations e (by simpa using he), fun c hch => ?_⟩
    rw [registerChain_chains] at hch
    simp only [registerChain_env]
    split at hch
    · rcases List.mem_append.1 hch with hch | hch
      · exact hc.chains c hch
      · -- the new chain's outermost slot is at `ptr`, so the chain asks nothing yet
        rw [List.mem_singleton.1 hch]
        intro v hv hw
        rw [hhead v hv] at hw
        cases hw
    · exact hc.chains c hch

theorem Grows.refl (cs : ConstraintStore) : Grows cs cs := Relation.ReflTransGen.refl

theorem Grows.trans (h : Grows cs cs') (h' : Grows cs' cs'') : Grows cs cs'' :=
  Relation.ReflTransGen.trans h h'

theorem StoreStep.grows (h : StoreStep cs cs') : Grows cs cs' := Relation.ReflTransGen.single h

theorem Grows.extends (h : Grows cs cs') : Extends cs cs' := by
  induction h with
  | refl => exact Extends.refl cs
  | tail _ step ih => exact ih.trans step.extends

theorem Grows.wf (h : Grows cs cs') (hw : cs.Wf) : cs'.Wf := by
  induction h with
  | refl => exact hw
  | tail _ step ih => exact step.wf ih

theorem Grows.closed (h : Grows cs cs') (hc : cs.Closed cs.env)
    (hlen : cs'.entries.length ≤ cs.entries.length) : cs'.Closed cs'.env := by
  induction h with
  | refl => exact hc
  | tail hrun step ih =>
    have hle := step.extends.entries.length_le
    exact step.closed (ih (Nat.le_trans hle hlen)) (Nat.le_trans hlen (Grows.extends hrun).entries.length_le)

/-! ## Solving, resetting and removing -/

theorem closed_withEnv_iff : ({ cs with env := env } : ConstraintStore).Closed p ↔ cs.Closed p :=
  ⟨fun h => ⟨h.relations, h.chains⟩, fun h => ⟨h.relations, h.chains⟩⟩

theorem LeastClosed.unique {start r r' : Array Qualifier} (h : cs.LeastClosed start r)
    (h' : cs.LeastClosed start r') : r = r' :=
  (h.least r' h'.above h'.closed).antisymm (h'.least r h.above h.closed)

theorem LeastClosed.sound {start r : Array Qualifier} (hs : cs.Scoped) (hl : cs.LeastClosed start r)
    (hsize : start.size = cs.numVars)
    (hstart : ∀ p, cs.Closed p → ∀ v, read start (.var v) ≤ read p (.var v)) :
    ∀ p, cs.Closed p → ∀ v, read r (.var v) ≤ read p (.var v) := by
  intro p hp v
  let q := Array.ofFn fun i : Fin cs.numVars => read p (.var i)
  have hq : cs.Closed q := hp.of_read_eq_of_scoped hs fun w hw => by rw [read_ofFn, if_pos hw]
  have hb : Below start q := by
    refine ⟨by simp [q, hsize], fun w => ?_⟩
    rw [read_ofFn]
    split
    · exact hstart p hp w
    · rw [read_of_size_le (by omega)]
      exact Qualifier.ptr_le _
  have hr := (hl.least q hb hq).2 v
  rw [read_ofFn] at hr
  split at hr
  · exact hr
  · rw [read_of_size_le (by have := hl.above.1; omega)]
    exact Qualifier.ptr_le _

theorem Wf.solve (hw : cs.Wf) {r : SolveStats × ConstraintStore} (h : cs.solve = .ok r) :
    r.2 = { cs with env := r.2.env } ∧ r.2.Wf ∧ r.2.Closed r.2.env ∧ Below cs.env r.2.env := by
  obtain ⟨heq, hl⟩ := leastClosed_solve h
  have hsize : r.2.env.size = cs.env.size := hl.above.1.symm
  refine ⟨heq, ?_, ?_, hl.above⟩
  · rw [heq]
    refine ⟨?_, hw.arrayReasons, fun p hp => ?_⟩
    · simpa [Scoped, numVars, hsize] using hw.registered
    · exact hl.sound hw.registered rfl hw.sound p (closed_withEnv_iff.1 hp)
  · rw [heq]
    exact closed_withEnv_iff.2 hl.closed

theorem wf_reset (hs : cs.Scoped) (ha : cs.ArrayReasonsBound) : cs.reset.Wf where
  registered := by simpa [Scoped] using hs
  arrayReasons := ha
  sound _ _ v := by
    rw [reset_env, read_replicate_ptr]
    exact Qualifier.ptr_le _

theorem Wf.reset_of_sublist (hw : cs.Wf) (henv : cs'.env = cs.env) (hch : cs'.chains = cs.chains)
    (hsub : cs'.entries.Sublist cs.entries) : cs'.reset.Wf := by
  refine wf_reset ⟨fun e he v hv => ?_, fun ch hc v hv => ?_⟩ (fun e he => hw.arrayReasons e (hsub.subset he))
  · simpa [numVars, henv] using hw.registered.1 e (hsub.subset he) v hv
  · simpa [numVars, henv] using hw.registered.2 ch (hch ▸ hc) v hv

@[simp] theorem remove_env (cs : ConstraintStore) (id : Nat) : (cs.remove id).2.env = cs.env := by
  unfold remove; split <;> rfl

@[simp] theorem remove_chains (cs : ConstraintStore) (id : Nat) : (cs.remove id).2.chains = cs.chains := by
  unfold remove; split <;> rfl

@[simp] theorem remove_nextId (cs : ConstraintStore) (id : Nat) : (cs.remove id).2.nextId = cs.nextId := by
  unfold remove; split <;> rfl

theorem remove_entries (cs : ConstraintStore) (id : Nat) :
    (cs.remove id).2.entries = cs.entries.filter fun e => e.1 != id := by
  unfold remove
  split
  · next h =>
    -- no constraint has the id, so the filter keeps them all
    refine (List.filter_eq_self.2 fun e he => ?_).symm
    simp only [get?, Option.map_eq_none_iff, List.find?_eq_none, beq_iff_eq] at h
    simpa using h e he
  · rfl

theorem foldl_remove : ∀ (ids : List Nat) (cs : ConstraintStore),
    (ids.foldl (fun cs id => (cs.remove id).2) cs).env = cs.env ∧
      (ids.foldl (fun cs id => (cs.remove id).2) cs).chains = cs.chains ∧
      (ids.foldl (fun cs id => (cs.remove id).2) cs).nextId = cs.nextId ∧
      (ids.foldl (fun cs id => (cs.remove id).2) cs).entries = cs.entries.filter fun e => e.1 ∉ ids
  | [], cs => by simp
  | id :: ids, cs => by
    obtain ⟨henv, hch, hnext, hent⟩ := foldl_remove ids (cs.remove id).2
    simp only [List.foldl_cons, henv, hch, hnext, hent, remove_env, remove_chains, remove_nextId,
      remove_entries, List.filter_filter, true_and]
    refine List.filter_congr fun e _ => ?_
    by_cases h1 : e.1 = id <;> by_cases h2 : e.1 ∈ ids <;> simp [h1, h2]

theorem mem_ids_filter_iff (cs : ConstraintStore) (p : Constraint → Bool) {e : Nat × Constraint}
    (he : e ∈ cs.entries) : e.1 ∈ (cs.entries.filter fun e => p e.2).map Prod.fst ↔ p e.2 = true := by
  constructor
  · intro hm
    obtain ⟨e', he', hid⟩ := List.mem_map.1 hm
    have he'' := List.mem_filter.1 he'
    rw [← cs.views.eq_of_id he''.1 he hid]
    exact he''.2
  · intro hp
    exact List.mem_map_of_mem (List.mem_filter.2 ⟨he, hp⟩)

@[simp] theorem removeReason_env (cs : ConstraintStore) (reason : String) :
    (cs.removeReason reason).2.env = cs.env := (foldl_remove _ cs).1

@[simp] theorem removeReason_chains (cs : ConstraintStore) (reason : String) :
    (cs.removeReason reason).2.chains = cs.chains := (foldl_remove _ cs).2.1

@[simp] theorem removeReason_nextId (cs : ConstraintStore) (reason : String) :
    (cs.removeReason reason).2.nextId = cs.nextId := (foldl_remove _ cs).2.2.1

theorem removeReason_entries (cs : ConstraintStore) (reason : String) :
    (cs.removeReason reason).2.entries = cs.entries.filter fun e => e.2.reason != reason := by
  refine (foldl_remove _ cs).2.2.2.trans (List.filter_congr fun e he => ?_)
  simp only [mem_ids_filter_iff cs (fun c => c.reason == reason) he]
  by_cases h : e.2.reason = reason <;> simp [h]

theorem Wf.leastClosed_reset (hw : cs.Wf) (hc : cs.Closed cs.env) :
    cs.reset.LeastClosed cs.reset.env cs.env where
  above := ⟨by simp, fun v => by rw [reset_env, read_replicate_ptr]; exact Qualifier.ptr_le _⟩
  closed := ⟨hc.relations, hc.chains⟩
  least p hp hpc := ⟨by simpa using hp.1, hw.sound p ⟨hpc.relations, hpc.chains⟩⟩

theorem Wf.solve_reset (hw : cs.Wf) (hc : cs.Closed cs.env) : ∃ st, cs.reset.solve = .ok (st, cs) := by
  have hs : cs.reset.Scoped := by simpa [Scoped] using hw.registered
  cases h : cs.reset.solve with
  | error err => rw [solve_of_scoped hs] at h; cases h
  | ok r =>
    obtain ⟨heq, hl⟩ := leastClosed_solve h
    have henv : r.2.env = cs.env := hl.unique (hw.leastClosed_reset hc)
    have hr : r.2 = cs := by rw [heq, henv]; rfl
    exact ⟨r.1, by rw [← hr]⟩

/-! ## The engine's ways of adding a constraint -/

variable {v : Nat} {q : Qualifier} {reason : String} {loc : Option SourceLoc}

@[simp] theorem addGeq_snd (cs : ConstraintStore) (v : Nat) (q : Qualifier) (reason : String)
    (loc : Option SourceLoc) : (cs.addGeq v q reason loc).2 = (cs.add (.geq v q) reason loc).2 := rfl

@[simp] theorem addWild_eq (cs : ConstraintStore) (v : Nat) (reason : String) (loc : Option SourceLoc) :
    cs.addWild v reason loc = cs.addGeq v .wild reason loc := rfl

@[simp] theorem addEq_snd (cs : ConstraintStore) (l r : Atom) (reason : String) (loc : Option SourceLoc) :
    (cs.addEq l r reason loc).2 = (cs.add (Relation.mkEq l r) reason loc).2 := rfl

theorem StoreStep.addGeq (hv : v < cs.numVars) (hr : reason = Reason.arrayDecl → q = .arr) :
    StoreStep cs (cs.addGeq v q reason loc).2 :=
  .add cs (.geq v q) reason loc (by simpa [Relation.vars] using hv) fun h => ⟨v, by rw [hr h]⟩

theorem StoreStep.addWild (hv : v < cs.numVars) (hr : reason ≠ Reason.arrayDecl) :
    StoreStep cs (cs.addWild v reason loc).2 :=
  .addGeq hv fun h => absurd h hr

theorem StoreStep.addEq {l r : Atom} (hl : ∀ v, l = .var v → v < cs.numVars)
    (hr : ∀ v, r = .var v → v < cs.numVars) (hreason : reason ≠ Reason.arrayDecl) :
    StoreStep cs (cs.addEq l r reason loc).2 := by
  refine .add cs _ reason loc (fun v hv => ?_) fun h => absurd h hreason
  have hlr : ∀ v ∈ (Relation.eq l r).vars, v < cs.numVars := by
    intro v hv
    simp only [Relation.vars, List.mem_append, Option.mem_toList] at hv
    rcases hv with hv | hv
    · cases l <;> simp_all [Atom.asVar?]
    · cases r <;> simp_all [Atom.asVar?]
  rcases Relation.mkEq_vars_perm l r with h | h <;> rw [h] at hv
  · exact hlr v hv
  · simp only [Relation.vars, List.mem_append] at hv
    exact hlr v (by simp only [Relation.vars, List.mem_append]; exact hv.symm)

end ConstraintStore

end CheckedPointers
