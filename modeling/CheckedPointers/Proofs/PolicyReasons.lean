import CheckedPointers.Proofs.ExternPolicy
/-!
# The constraints of the extern policy

The extern policy gives the constraints it adds one of two reasons (`Reason.ByPolicy`), and no
other operation uses them. Building entries bounds array levels for the reason of an array
declaration; forcing a declaration uses the reason it is forced for, which is a macro expansion or
a file that may not be rewritten; relating entries, linking and reconciling use reasons of their
own. A made-up declaration is forced for the reason its function was, so this needs every
recorded function to be forced for another reason (`Program.ForcedOffPolicy`), which recording
declarations keeps.

So every operation but the policy adds constraints only for other reasons
(`Program.AvoidsPolicy`), and what the policy adds is on slots of the function it is applied to.
After a build from a fresh session and a solve, every constraint with a reason of the policy is on
slots of a function recorded under a name never seen with a body and not trusted
(`Program.PolicyAttributed`).
-/

namespace CheckedPointers

namespace Reason

/-- The reasons the extern policy gives the constraints it adds. -/
def ByPolicy (r : String) : Prop := r = externReturn ∨ r = externParam

instance : DecidablePred ByPolicy := fun r => inferInstanceAs (Decidable (r = externReturn ∨ r = externParam))

end Reason

/-- A constraint given for a reason other than the extern policy's. -/
def Constraint.OffPolicy (c : Constraint) : Prop := ¬ Reason.ByPolicy c.reason

/-- A constraint only on slots the entry `id` reaches. -/
def Constraint.OnSlotsOf (ar : Arena) (id : Nat) (c : Constraint) : Prop :=
  ∀ v ∈ c.relation.vars, v ∈ (ar.varsOf id).toList

theorem Constraint.OnSlotsOf.of_child {ar : Arena} {id x : Nat} {c : Constraint} (h : c.OnSlotsOf ar x)
    (hrefs : ar.RefsBelow) (hx : x ∈ ar.children id) : c.OnSlotsOf ar id :=
  fun v hv => Arena.mem_varsOf_of_child hrefs hx (h v hv)

namespace ConstraintStore

variable {P Q : Constraint → Prop} {cs cs' cs'' : ConstraintStore}

/-- Every constraint of `cs'` is one of `cs` or satisfies `P`. -/
def AddsWhere (P : Constraint → Prop) (cs cs' : ConstraintStore) : Prop :=
  ∀ e ∈ cs'.entries, e ∈ cs.entries ∨ P e.2

theorem AddsWhere.refl (cs : ConstraintStore) : cs.AddsWhere P cs := fun _ he => .inl he

theorem AddsWhere.trans (h : cs.AddsWhere P cs') (h' : cs'.AddsWhere P cs'') : cs.AddsWhere P cs'' := by
  intro e he
  rcases h' e he with he' | hP
  · exact h e he'
  · exact .inr hP

theorem AddsWhere.mono (h : cs.AddsWhere P cs') (hPQ : ∀ c, P c → Q c) : cs.AddsWhere Q cs' :=
  fun e he => (h e he).imp_right (hPQ _)

theorem addsWhere_of_entries (h : cs'.entries = cs.entries) : cs.AddsWhere P cs' :=
  fun _ he => .inl (h ▸ he)

theorem addsWhere_add {r : Relation} {reason : String} {loc : Option SourceLoc}
    (h : P ⟨r, reason, loc⟩) : cs.AddsWhere P (cs.add r reason loc).2 := by
  intro e he
  rcases mem_add_entries he with he | rfl
  · exact .inl he
  · exact .inr h

theorem addsWhere_addGeq {v : Nat} {q : Qualifier} {reason : String} {loc : Option SourceLoc}
    (h : P ⟨.geq v q, reason, loc⟩) : cs.AddsWhere P (cs.addGeq v q reason loc).2 := by
  rw [addGeq_snd]
  exact addsWhere_add h

theorem addsWhere_addEq {l r : Atom} {reason : String} {loc : Option SourceLoc}
    (h : P ⟨Relation.mkEq l r, reason, loc⟩) : cs.AddsWhere P (cs.addEq l r reason loc).2 := by
  rw [addEq_snd]
  exact addsWhere_add h

theorem offPolicy_addGeq {v : Nat} {q : Qualifier} {reason : String} {loc : Option SourceLoc}
    (hr : ¬ Reason.ByPolicy reason) : cs.AddsWhere Constraint.OffPolicy (cs.addGeq v q reason loc).2 :=
  addsWhere_addGeq hr

theorem addsWhere_ite {c : Prop} [Decidable c] {x : ConstraintStore} (hx : cs.AddsWhere P x) :
    cs.AddsWhere P (if c then x else cs) := by
  split
  · exact hx
  · exact AddsWhere.refl cs

theorem addsWhere_foldl {β : Type} {l : List β} {f : ConstraintStore → β → ConstraintStore}
    (hf : ∀ (cs : ConstraintStore), ∀ x ∈ l, cs.AddsWhere P (f cs x)) :
    ∀ (cs : ConstraintStore), cs.AddsWhere P (l.foldl f cs) := by
  induction l with
  | nil => exact AddsWhere.refl
  | cons x xs ih =>
    exact fun cs => (hf cs x List.mem_cons_self).trans
      (ih (fun cs y hy => hf cs y (List.mem_cons_of_mem x hy)) _)

end ConstraintStore

open ConstraintStore

namespace Arena

variable (ar : Arena) {reason : String} {loc : Option SourceLoc}

theorem addsWhere_constrainToWild (cs : ConstraintStore) (id : Nat) (reason : String) (loc : Option SourceLoc) :
    cs.AddsWhere (fun c => c.reason = reason ∧ ∀ v ∈ c.relation.vars, v ∈ (ar.varsOf id).toList)
      (ar.constrainToWild cs id reason loc) :=
  addsWhere_foldl (fun _ v hv => addsWhere_addGeq ⟨rfl, fun w hw => by
    rw [List.mem_singleton.1 hw]
    exact hv⟩) cs

theorem offPolicy_constrainToWild (hr : ¬ Reason.ByPolicy reason) (cs : ConstraintStore) (id : Nat) :
    cs.AddsWhere Constraint.OffPolicy (ar.constrainToWild cs id reason loc) :=
  (addsWhere_constrainToWild ar cs id reason loc).mono fun c h =>
    show ¬ Reason.ByPolicy c.reason from h.1 ▸ hr

theorem offPolicy_constrainSetToWild (hr : ¬ Reason.ByPolicy reason) (cs : ConstraintStore) (s : SortedSet Nat) :
    cs.AddsWhere Constraint.OffPolicy (ar.constrainSetToWild cs s reason loc) :=
  addsWhere_foldl (fun cs id _ => ar.offPolicy_constrainToWild hr cs id) cs

theorem offPolicy_constrainEq (hr : ¬ Reason.ByPolicy reason) (a b : Nat) (cs : ConstraintStore) :
    cs.AddsWhere Constraint.OffPolicy (ar.constrainEq cs a b reason loc) := by
  -- every recursive call equates entries of smaller numbers on both sides
  induction a, b using sum_induction generalizing cs with
  | step a b ih =>
    have hzip : ∀ (l : List (Nat × Nat)) (cs : ConstraintStore), cs.AddsWhere Constraint.OffPolicy
        (l.foldl (fun cs x => (cs.addEq (.var x.1) (.var x.2) reason loc).2) cs) :=
      fun l => addsWhere_foldl fun _ _ _ => addsWhere_addEq hr
    have hsets : ∀ (x y : SortedSet Nat) (cs : ConstraintStore), cs.AddsWhere Constraint.OffPolicy (x.toList.attach.foldl (fun cs i =>
        y.toList.attach.foldl (fun cs j =>
          if _h : i.1 < a ∧ j.1 < b then ar.constrainEq cs i.1 j.1 reason loc else cs) cs) cs) := by
      intro x y
      refine addsWhere_foldl fun cs i _ => addsWhere_foldl (fun cs j _ => ?_) cs
      split
      · next hij => exact ih i.1 j.1 (by omega) cs
      · exact AddsWhere.refl cs
    have hboth : ∀ why, ¬ Reason.ByPolicy why → ∀ (cs : ConstraintStore), cs.AddsWhere Constraint.OffPolicy
        (ar.constrainToWild (ar.constrainToWild cs a why loc) b why loc) :=
      fun why hwhy cs => (ar.offPolicy_constrainToWild hwhy cs a).trans (ar.offPolicy_constrainToWild hwhy _ b)
    rw [constrainEq]
    dsimp only
    split
    · exact AddsWhere.refl cs
    split
    · -- two pointers: level by level, then their embedded functions
      split
      · split
        · exact hboth _ (by decide) cs
        · exact AddsWhere.refl cs
      · split
        · split
          · exact (hzip _ cs).trans (ih _ _ (by omega) _)
          · exact hzip _ cs
        · exact hzip _ cs
    · -- two functions: returns, then parameters position by position
      next fa fb _ _ =>
      split
      · exact (hsets fa.returns fb.returns cs).trans (addsWhere_foldl (fun cs x _ => hsets x.1 x.2 cs) _)
      · split
        · exact (hsets fa.returns fb.returns cs).trans (hboth _ (by decide) _)
        · exact hsets fa.returns fb.returns cs
    · -- a pointer against a function: its embedded function against the function
      split
      · split
        · exact ih _ b (by omega) cs
        · exact AddsWhere.refl cs
      · exact hboth _ (by decide) cs
    · split
      · split
        · exact ih _ a (by omega) cs
        · exact AddsWhere.refl cs
      · exact hboth _ (by decide) cs
    · exact AddsWhere.refl cs

theorem offPolicy_constrainEqSets (hr : ¬ Reason.ByPolicy reason) (cs : ConstraintStore) (x y : SortedSet Nat) :
    cs.AddsWhere Constraint.OffPolicy (ar.constrainEqSets cs x y reason loc) :=
  addsWhere_foldl (fun cs i _ => addsWhere_foldl (fun cs j _ => ar.offPolicy_constrainEq hr i j cs) cs) cs

theorem offPolicy_foldl_levelStep (levels : List Level) (acc : List Nat × ConstraintStore) :
    acc.2.AddsWhere Constraint.OffPolicy (levels.foldl levelStep acc).2 := by
  induction levels generalizing acc with
  | nil => exact AddsWhere.refl _
  | cons l ls ih =>
    refine AddsWhere.trans ?_ (ih (levelStep acc l))
    cases l with
    | pointer => exact addsWhere_of_entries (fresh_entries _)
    | array =>
      show acc.2.AddsWhere Constraint.OffPolicy (acc.2.fresh.2.addGeq acc.2.fresh.1 .arr Reason.arrayDecl none).2
      exact (addsWhere_of_entries (fresh_entries _)).trans
        (offPolicy_addGeq (by decide))

mutual

theorem offPolicy_build (a : Arena) (cs : ConstraintStore) (name : String) :
    ∀ (ty : TypeShape) (ann : Annotations), cs.AddsWhere Constraint.OffPolicy (a.build cs name ty ann).2.2
  | ⟨base, [], some f⟩, ann => by
    rw [build.eq_1]
    exact offPolicy_buildFunction a cs name f ann
  | ⟨base, [], none⟩, ann => by
    rw [build_pointer a cs name base [] none ann (.inr rfl)]
    exact (offPolicy_foldl_levelStep _ _).trans (addsWhere_of_entries (registerChain_entries _ _))
  | ⟨base, l :: ls, function⟩, ann => by
    rw [build_pointer a cs name base (l :: ls) function ann (.inl (List.cons_ne_nil l ls))]
    exact (offPolicy_foldl_levelStep _ _).trans ((addsWhere_of_entries (registerChain_entries _ _)).trans
      (offPolicy_buildEmbedded a _ name function))

theorem offPolicy_buildEmbedded (a : Arena) (cs : ConstraintStore) (name : String) :
    ∀ f : Option FunctionShape, cs.AddsWhere Constraint.OffPolicy (a.buildEmbedded cs name f).2.2
  | none => by
    rw [buildEmbedded]
    exact AddsWhere.refl cs
  | some f => by
    rw [buildEmbedded_some]
    exact offPolicy_buildFunction a cs name f {}

theorem offPolicy_buildFunction (a : Arena) (cs : ConstraintStore) (name : String) :
    ∀ (f : FunctionShape) (ann : Annotations), cs.AddsWhere Constraint.OffPolicy (a.buildFunction cs name f ann).2.2
  | ⟨ret, params, hasPrototype, variadic⟩, ann => by
    rw [buildFunction_eq]
    exact (offPolicy_build a cs name ret _).trans (offPolicy_buildParams _ _ params)

theorem offPolicy_buildParams (a : Arena) (cs : ConstraintStore) :
    ∀ ps : List ParamShape, cs.AddsWhere Constraint.OffPolicy (a.buildParams cs ps).2.2
  | [] => by
    rw [buildParams]
    exact AddsWhere.refl cs
  | ⟨pname, ty, key, itype⟩ :: rest => by
    rw [buildParams_cons]
    exact (offPolicy_build a cs pname ty _).trans (offPolicy_buildParams _ _ rest)

end

theorem addressOf_entries (a : Arena) (cs : ConstraintStore) (id : Nat) :
    (a.addressOf cs id).2.2.entries = cs.entries := by
  unfold addressOf
  simp

end Arena

namespace Program

variable {α β : Type} {p q : Program} {reason : String} {loc : Option SourceLoc}

/-! ## Operations that avoid the policy's reasons -/

/-- No recorded function is forced for a reason of the extern policy. -/
def ForcedOffPolicy (p : Program) : Prop :=
  ∀ e ∈ p.functions.toList, ∀ r, e.2.forcedWild = some r → ¬ Reason.ByPolicy r

theorem ForcedOffPolicy.of_sameTables (h : p.ForcedOffPolicy) (ht : SameTables p q) : q.ForcedOffPolicy := by
  intro e he
  rw [ht.functions] at he
  exact h e he

theorem forcedReason_offPolicy (d : DeclFact) : ∀ r, DeclFact.forcedReason d = some r → ¬ Reason.ByPolicy r := by
  intro r hr
  unfold DeclFact.forcedReason at hr
  split at hr
  · cases hr
    decide
  · split at hr
    · cases hr
      decide
    · cases hr

/-- Run from a program whose functions are forced for no reason of the policy, the operation keeps
it so and adds constraints only for other reasons, whatever its outcome. -/
def AvoidsPolicy (m : ProgramM α) : Prop :=
  ∀ p : Program, p.ForcedOffPolicy → (stateOf (m.run p)).ForcedOffPolicy ∧
    p.store.AddsWhere Constraint.OffPolicy (stateOf (m.run p)).store

theorem AvoidsPolicy.run_ok {m : ProgramM α} {a : α} (hm : AvoidsPolicy m) (h : p.ForcedOffPolicy)
    (hr : m.run p = .ok a q) : q.ForcedOffPolicy ∧ p.store.AddsWhere Constraint.OffPolicy q.store := by
  have h' := hm p h
  rw [hr, stateOf_ok] at h'
  exact h'

theorem avoidsPolicy_of {m : ProgramM α} (ht : KeepsTables m)
    (hs : ∀ p : Program, p.ForcedOffPolicy → p.store.AddsWhere Constraint.OffPolicy (stateOf (m.run p)).store) :
    AvoidsPolicy m :=
  fun p h => ⟨h.of_sameTables (ht p), hs p h⟩

section AvoidsPolicy

theorem avoidsPolicy_pure (a : α) : AvoidsPolicy (pure a : ProgramM α) := fun _ h => ⟨h, AddsWhere.refl _⟩

theorem avoidsPolicy_throw (e : Error) : AvoidsPolicy (throw e : ProgramM α) := fun _ h => ⟨h, AddsWhere.refl _⟩

theorem avoidsPolicy_get : AvoidsPolicy (get : ProgramM Program) := fun _ h => ⟨h, AddsWhere.refl _⟩

theorem avoidsPolicy_modify {f : Program → Program}
    (hf : ∀ p : Program, p.ForcedOffPolicy → (f p).ForcedOffPolicy ∧ p.store.AddsWhere Constraint.OffPolicy (f p).store) :
    AvoidsPolicy (modify f : ProgramM Unit) := by
  intro p h
  rw [run_modify, stateOf_ok]
  exact hf p h

theorem AvoidsPolicy.bind {x : ProgramM α} {f : α → ProgramM β} (hx : AvoidsPolicy x)
    (hf : ∀ a, AvoidsPolicy (f a)) : AvoidsPolicy (x >>= f) := by
  intro p h
  obtain ⟨h₁, hs₁⟩ := hx p h
  rw [run_bind]
  cases hr : x.run p with
  | ok a q =>
    rw [hr, stateOf_ok] at h₁ hs₁
    obtain ⟨h₂, hs₂⟩ := hf a q h₁
    exact ⟨h₂, hs₁.trans hs₂⟩
  | error e q =>
    rw [hr, stateOf_error] at h₁ hs₁
    exact ⟨h₁, hs₁⟩

theorem avoidsPolicy_get_bind {f : Program → ProgramM β}
    (hf : ∀ p : Program, p.ForcedOffPolicy → (stateOf ((f p).run p)).ForcedOffPolicy ∧
      p.store.AddsWhere Constraint.OffPolicy (stateOf ((f p).run p)).store) : AvoidsPolicy (get >>= f) := by
  intro p h
  rw [run_bind, run_get]
  exact hf p h

theorem avoidsPolicy_forIn {l : List α} {init : β} {f : α → β → ProgramM (ForInStep β)}
    (hf : ∀ a b, AvoidsPolicy (f a b)) : AvoidsPolicy (forIn l init f) := by
  induction l generalizing init with
  | nil => exact avoidsPolicy_pure init
  | cons x xs ih =>
    rw [List.forIn_cons]
    refine (hf x init).bind fun r => ?_
    cases r with
    | done b => exact avoidsPolicy_pure b
    | yield b => exact ih

theorem avoidsPolicy_foldlM {l : List α} {init : β} {f : β → α → ProgramM β}
    (hf : ∀ b a, AvoidsPolicy (f b a)) : AvoidsPolicy (l.foldlM f init) := by
  induction l generalizing init with
  | nil => exact avoidsPolicy_pure init
  | cons x xs ih =>
    rw [List.foldlM_cons]
    exact (hf init x).bind fun b => ih

theorem avoidsPolicy_mapM {l : List α} {f : α → ProgramM β} (hf : ∀ a, AvoidsPolicy (f a)) :
    AvoidsPolicy (l.mapM f) := by
  rw [List.mapM_eq_reverse_foldlM_cons]
  exact (avoidsPolicy_foldlM fun b a => (hf a).bind fun c => avoidsPolicy_pure (c :: b)).bind
    fun l => avoidsPolicy_pure _

theorem avoidsPolicy_ite {c : Prop} [Decidable c] {x y : ProgramM α} (hx : AvoidsPolicy x)
    (hy : AvoidsPolicy y) : AvoidsPolicy (if c then x else y) := by
  split
  · exact hx
  · exact hy

end AvoidsPolicy

/-! ## Looking up declarations -/

theorem offPolicy_buildEntry (p : Program) (name : String) (ty : TypeShape) (ann : Annotations) :
    p.store.AddsWhere Constraint.OffPolicy (p.buildEntry name ty ann).2.store :=
  p.arena.offPolicy_build p.store name ty ann

theorem offPolicy_forceWildOpt {o : Option String} (ho : ∀ r, o = some r → ¬ Reason.ByPolicy r) (id : Nat)
    (loc : Option SourceLoc) (p : Program) : p.store.AddsWhere Constraint.OffPolicy (forceWildOpt o id loc p).store := by
  cases o with
  | none => exact AddsWhere.refl _
  | some r => exact p.arena.offPolicy_constrainToWild (ho r rfl) p.store id

theorem avoidsPolicy_synthesize (def_ : DeclKey) : AvoidsPolicy (synthesize def_) := by
  refine avoidsPolicy_of (keepsTables_synthesize def_) fun p h => ?_
  rcases synthesize_cases def_ p with ⟨id, -, hr⟩ | ⟨e, hr⟩ | ⟨f, -, hf, hr⟩ <;> rw [hr]
  · exact AddsWhere.refl _
  · exact AddsWhere.refl _
  obtain ⟨k, hk, -⟩ := SortedMap.mem_of_find? hf
  exact (offPolicy_buildEntry p _ _ _).trans (offPolicy_forceWildOpt (h _ hk) _ _ _)

theorem avoidsPolicy_outOfContextFunction (key : DeclKey) : AvoidsPolicy (outOfContextFunction key) := by
  unfold outOfContextFunction
  refine avoidsPolicy_get_bind fun p h => ?_
  split
  · exact avoidsPolicy_throw _ p h
  · split
    · exact avoidsPolicy_pure _ p h
    · split
      · exact avoidsPolicy_pure _ p h
      · exact avoidsPolicy_synthesize key p h

theorem avoidsPolicy_paramOf (function : DeclKey) (index : Nat) (inContext : Bool) :
    AvoidsPolicy (paramOf function index inContext) := by
  unfold paramOf
  extract_lets -underBinder jp
  -- after the function entry is found, only reads follow
  have hjp : ∀ fv, AvoidsPolicy (jp fv) := by
    intro fv
    unfold jp
    refine avoidsPolicy_get_bind fun p h => ?_
    split
    · exact avoidsPolicy_throw _ p h
    · split
      · exact avoidsPolicy_pure _ p h
      · exact avoidsPolicy_throw _ p h
  clear_value jp
  split
  · refine avoidsPolicy_get_bind fun p h => ?_
    split
    · exact ((avoidsPolicy_pure _).bind hjp) p h
    · exact ((avoidsPolicy_throw _).bind hjp) p h
  · exact (avoidsPolicy_outOfContextFunction function).bind hjp

theorem avoidsPolicy_getVariable (key : DeclKey) (inContext : Bool) :
    AvoidsPolicy (getVariable key inContext) := by
  unfold getVariable
  refine avoidsPolicy_get_bind fun p h => ?_
  dsimp only
  split
  · exact avoidsPolicy_pure _ p h
  · split
    · exact ((avoidsPolicy_outOfContextFunction key).bind fun _ => avoidsPolicy_pure _) p h
    · split
      · exact avoidsPolicy_paramOf _ _ _ p h
      · exact avoidsPolicy_pure _ p h

/-! ## Resolving expressions -/

theorem avoidsPolicy_dereferenceM (c : Nat) : AvoidsPolicy (dereferenceM c) := by
  refine avoidsPolicy_of (keepsTables_dereferenceM c) fun p _ => ?_
  unfold dereferenceM
  rw [run_bind, run_get]
  dsimp only
  split
  · exact AddsWhere.refl _
  · exact AddsWhere.refl _

theorem avoidsPolicy_addressOfM (c : Nat) : AvoidsPolicy (addressOfM c) :=
  avoidsPolicy_of (keepsTables_addressOfM c) fun p _ => addsWhere_of_entries (p.arena.addressOf_entries p.store c)

theorem avoidsPolicy_stringLiteral : AvoidsPolicy stringLiteral :=
  avoidsPolicy_of keepsTables_stringLiteral fun p _ => (addsWhere_of_entries (fresh_entries p.store)).trans
    (offPolicy_addGeq (by decide))

theorem avoidsPolicy_derefAll (cs : SortedSet Nat) : AvoidsPolicy (derefAll cs) := by
  unfold derefAll
  refine avoidsPolicy_foldlM fun out c => (avoidsPolicy_dereferenceM c).bind fun r => ?_
  cases r with
  | some d => exact avoidsPolicy_pure _
  | none => exact avoidsPolicy_pure _

mutual

theorem avoidsPolicy_exprEntries : ∀ e : Expr, AvoidsPolicy (exprEntries e)
  | .decl key inContext => by
    rw [exprEntries]
    exact avoidsPolicy_getVariable key inContext
  | .deref e => by
    rw [exprEntries]
    exact (avoidsPolicy_exprEntries e).bind avoidsPolicy_derefAll
  | .index e => by
    rw [exprEntries]
    exact (avoidsPolicy_exprEntries e).bind avoidsPolicy_derefAll
  | .addrOf e => by
    rw [exprEntries]
    exact (avoidsPolicy_exprEntries e).bind fun _ =>
      avoidsPolicy_foldlM fun _ c => (avoidsPolicy_addressOfM c).bind fun _ => avoidsPolicy_pure _
  | .call callee => by
    rw [exprEntries]
    exact (avoidsPolicy_exprEntries callee).bind fun _ => avoidsPolicy_get.bind fun _ =>
      avoidsPolicy_get.bind fun _ => avoidsPolicy_pure _
  | .stringLiteral => by
    rw [exprEntries]
    exact avoidsPolicy_stringLiteral.bind fun _ => avoidsPolicy_pure _
  | .conditional bs => by
    rw [exprEntries]
    exact avoidsPolicy_branchEntries bs
  | .null => by
    rw [exprEntries]
    exact avoidsPolicy_pure _
  | .other => by
    rw [exprEntries]
    exact avoidsPolicy_pure _

theorem avoidsPolicy_branchEntries : ∀ bs : List Expr, AvoidsPolicy (branchEntries bs)
  | [] => by
    rw [branchEntries]
    exact avoidsPolicy_pure _
  | b :: bs => by
    rw [branchEntries]
    exact (avoidsPolicy_exprEntries b).bind fun _ =>
      (avoidsPolicy_branchEntries bs).bind fun _ => avoidsPolicy_pure _

end

/-! ## Relating entries -/

theorem avoidsPolicy_updateStore {f : Arena → ConstraintStore → ConstraintStore}
    (hf : ∀ p : Program, p.store.AddsWhere Constraint.OffPolicy (f p.arena p.store)) : AvoidsPolicy (updateStore f) :=
  avoidsPolicy_modify fun p h => ⟨h, hf p⟩

theorem avoidsPolicy_forceSetWild (s : SortedSet Nat) (hr : ¬ Reason.ByPolicy reason) :
    AvoidsPolicy (forceSetWild s reason loc) :=
  avoidsPolicy_updateStore fun p => p.arena.offPolicy_constrainSetToWild hr p.store s

theorem avoidsPolicy_bind (formal actual : SortedSet Nat) (hr : ¬ Reason.ByPolicy reason) :
    AvoidsPolicy (bind formal actual reason loc) := by
  refine avoidsPolicy_of (keepsTables_bind formal actual) fun p _ => ?_
  unfold Program.bind
  rw [run_modify, stateOf_ok]
  -- each pair is equated, which adds constraints for the binding's reason
  refine foldl_keeps (P := fun q => p.store.AddsWhere Constraint.OffPolicy q.store) (fun f _ q hq => ?_) p
    (AddsWhere.refl _)
  refine foldl_keeps (P := fun q => p.store.AddsWhere Constraint.OffPolicy q.store) (fun a _ q' hq' => ?_) q hq
  exact hq'.trans (q'.arena.offPolicy_constrainEq hr f a q'.store)

theorem avoidsPolicy_addCall (callee : Expr) (args : List Expr) (result : Option Expr) :
    AvoidsPolicy (addCall callee args result loc) := by
  unfold addCall
  refine (avoidsPolicy_exprEntries callee).bind fun _ => avoidsPolicy_get.bind fun _ => ?_
  refine (avoidsPolicy_mapM avoidsPolicy_exprEntries).bind fun argSets => ?_
  dsimp only
  split <;> [refine (avoidsPolicy_exprEntries _).bind fun resultSet => ?_;
    refine (avoidsPolicy_pure _).bind fun resultSet => ?_]
  -- what follows is the same whether or not the call's value is stored
  all_goals
    split
    · exact (avoidsPolicy_forIn fun s _ => (avoidsPolicy_forceSetWild s (by decide)).bind fun _ =>
        avoidsPolicy_pure _).bind fun _ => avoidsPolicy_pure _
    · refine (avoidsPolicy_forIn fun f _ => avoidsPolicy_get.bind fun q => ?_).bind fun _ =>
        avoidsPolicy_pure _
      split
      · exact avoidsPolicy_pure _
      · refine (avoidsPolicy_forIn fun x _ => ?_).bind fun _ =>
          (avoidsPolicy_bind _ _ (by decide)).bind fun _ => avoidsPolicy_pure _
        obtain ⟨a, i⟩ := x
        dsimp only
        split
        · exact (avoidsPolicy_bind _ _ (by decide)).bind fun _ => avoidsPolicy_pure _
        · refine avoidsPolicy_get.bind fun _ => ?_
          split
          · exact (avoidsPolicy_forceSetWild _ (by decide)).bind fun _ => avoidsPolicy_pure _
          · exact avoidsPolicy_pure _

theorem avoidsPolicy_addFact (fact : Fact) : AvoidsPolicy (addFact fact) := by
  cases fact with
  | declare d => exact avoidsPolicy_pure _
  | assign lhs rhs loc =>
    exact (avoidsPolicy_exprEntries lhs).bind fun l => (avoidsPolicy_exprEntries rhs).bind fun r =>
      avoidsPolicy_updateStore fun p => p.arena.offPolicy_constrainEqSets (by decide) p.store l r
  | call callee args result loc => exact avoidsPolicy_addCall callee args result
  | ret function e loc =>
    refine (avoidsPolicy_getVariable function true).bind fun _ => (avoidsPolicy_exprEntries e).bind
      fun _ => (avoidsPolicy_forIn fun f _ => avoidsPolicy_get.bind fun _ => ?_).bind fun _ =>
        avoidsPolicy_pure _
    split
    · exact (avoidsPolicy_updateStore fun p => p.arena.offPolicy_constrainEqSets (by decide) p.store _ _).bind
        fun _ => avoidsPolicy_pure _
    · exact avoidsPolicy_pure _
  | cast e src dst loc =>
    refine avoidsPolicy_ite ?_ (avoidsPolicy_pure _)
    exact (avoidsPolicy_exprEntries e).bind fun s => avoidsPolicy_forceSetWild s (by decide)
  | arithmetic e loc =>
    refine (avoidsPolicy_exprEntries e).bind fun _ =>
      (avoidsPolicy_forIn fun c _ => avoidsPolicy_get.bind fun q => ?_).bind fun _ => avoidsPolicy_pure _
    split
    · exact (avoidsPolicy_updateStore fun p =>
        offPolicy_addGeq (by decide)).bind fun _ => avoidsPolicy_pure _
    · exact avoidsPolicy_pure _

/-! ## Recording declarations -/

theorem avoidsPolicy_addFunction (h : p.ForcedOffPolicy) (d : DeclFact) (ann : Annotations) {forced : Option String}
    (hforced : ∀ r, forced = some r → ¬ Reason.ByPolicy r) :
    (p.addFunction d ann forced).ForcedOffPolicy ∧
      p.store.AddsWhere Constraint.OffPolicy (p.addFunction d ann forced).store := by
  rw [addFunction_eq]
  dsimp only
  set b := p.buildEntry d.name d.ty ann
  set q := recordParams d b.1 (noteBody d ((forceWildOpt forced b.1 (some d.key.loc) b.2).recordAt d.key b.1))
  have hq : q.functions = p.functions := by
    rw [(recordParams_names d _ _).2]
    exact (forceWildOpt_names forced _ _ _).2
  refine ⟨fun e he r hr => ?_, ?_⟩
  · rcases SortedMap.mem_insertIfAbsent he with he | rfl
    · rw [hq] at he
      exact h e he r hr
    · exact hforced r hr
  · show p.store.AddsWhere Constraint.OffPolicy q.store
    rw [store_recordParams]
    exact (offPolicy_buildEntry p _ _ _).trans (offPolicy_forceWildOpt hforced _ _ _)

theorem avoidsPolicy_addDeclaration (h : p.ForcedOffPolicy) (d : DeclFact) :
    (p.addDeclaration d).ForcedOffPolicy ∧ p.store.AddsWhere Constraint.OffPolicy (p.addDeclaration d).store := by
  have hforced := forcedReason_offPolicy d
  unfold Program.addDeclaration
  generalize hp0 : ({ p with files := p.files.alter d.key.file fun r => r.getD true && d.rewritable } :
    Program) = p0
  have h0 : p0.ForcedOffPolicy := hp0 ▸ h
  have hs0 : p.store = p0.store := hp0 ▸ rfl
  rw [hs0]
  dsimp only
  split
  · exact avoidsPolicy_addFunction h0 d _ hforced
  split
  · -- a parameter of a recorded function takes the declaration's reason
    split
    · next r hr => exact ⟨h0, p0.arena.offPolicy_constrainSetToWild (hforced r hr) _ _⟩
    · exact ⟨h0, AddsWhere.refl _⟩
  split
  · exact ⟨h0, AddsWhere.refl _⟩
  -- any other declaration with a level builds one pointer entry
  have hb := offPolicy_buildEntry p0 d.name d.ty
    { itype := d.itype, boundsInterop := d.boundsInterop, hasBody := d.isDefinition }
  have hforce := offPolicy_forceWildOpt hforced
    (p0.buildEntry d.name d.ty { itype := d.itype, boundsInterop := d.boundsInterop, hasBody := d.isDefinition }).1
    (some d.key.loc)
    (p0.buildEntry d.name d.ty { itype := d.itype, boundsInterop := d.boundsInterop, hasBody := d.isDefinition }).2
  have hfun := (forceWildOpt_names (DeclFact.forcedReason d)
    (p0.buildEntry d.name d.ty { itype := d.itype, boundsInterop := d.boundsInterop, hasBody := d.isDefinition }).1
    (some d.key.loc)
    (p0.buildEntry d.name d.ty { itype := d.itype, boundsInterop := d.boundsInterop, hasBody := d.isDefinition }).2).2
  have h1 : (forceWildOpt (DeclFact.forcedReason d)
      (p0.buildEntry d.name d.ty { itype := d.itype, boundsInterop := d.boundsInterop, hasBody := d.isDefinition }).1
      (some d.key.loc)
      (p0.buildEntry d.name d.ty { itype := d.itype, boundsInterop := d.boundsInterop, hasBody := d.isDefinition }).2).ForcedOffPolicy := by
    intro e he
    rw [hfun] at he
    exact h0 e he
  split
  · exact ⟨h1, hb.trans hforce⟩
  · exact ⟨h1, hb.trans hforce⟩

theorem avoidsPolicy_addFacts (facts : List Fact) : AvoidsPolicy (addFacts facts) := by
  unfold addFacts
  refine (avoidsPolicy_modify fun p h => ?_).bind fun _ =>
    (avoidsPolicy_forIn fun f _ => (avoidsPolicy_addFact f).bind fun _ => avoidsPolicy_pure _).bind
      fun _ => avoidsPolicy_pure _
  -- the declarations, one at a time
  refine foldl_keeps (P := fun q => q.ForcedOffPolicy ∧ p.store.AddsWhere Constraint.OffPolicy q.store)
    (fun f _ q hq => ?_) p ⟨h, AddsWhere.refl _⟩
  cases f with
  | declare d =>
    obtain ⟨h', hs'⟩ := avoidsPolicy_addDeclaration hq.1 d
    exact ⟨h', hq.2.trans hs'⟩
  | _ => exact hq

/-! ## Linking and reconciling -/

theorem avoidsPolicy_equateInSequence (ids : List Nat) (loc : Option SourceLoc) :
    AvoidsPolicy (modify fun q : Program => q.equateInSequence ids loc) := by
  refine avoidsPolicy_of (keepsTables_modify (sameTables_equateInSequence ids loc)) fun p _ => ?_
  rw [run_modify, stateOf_ok]
  unfold equateInSequence
  refine foldl_keeps (P := fun q => p.store.AddsWhere Constraint.OffPolicy q.store) (fun x _ q hq => ?_) p
    (AddsWhere.refl _)
  exact hq.trans (q.arena.offPolicy_constrainEq (by decide) x.1 x.2 q.store)

theorem avoidsPolicy_linkGroups : AvoidsPolicy linkGroups := by
  unfold linkGroups
  refine avoidsPolicy_get.bind fun _ => (avoidsPolicy_modify fun p h => ?_).bind fun _ =>
    avoidsPolicy_get.bind fun _ => (avoidsPolicy_modify fun p h => ?_).bind fun _ => avoidsPolicy_pure _
  all_goals
    refine foldl_keeps (P := fun q => q.ForcedOffPolicy ∧ p.store.AddsWhere Constraint.OffPolicy q.store)
      (fun x _ q hq => ?_) p ⟨h, AddsWhere.refl _⟩
    obtain ⟨h', hs'⟩ := avoidsPolicy_equateInSequence _ _ q hq.1
    rw [run_modify, stateOf_ok] at h' hs'
    exact ⟨h', hq.2.trans hs'⟩

theorem offPolicy_widenReturn (ar : Arena) (cs : ConstraintStore) (dr src : Nat) :
    cs.AddsWhere Constraint.OffPolicy (widenReturn ar cs dr src) := by
  unfold widenReturn
  split
  · exact AddsWhere.refl cs
  · refine addsWhere_foldl (fun acc x _ => ?_) cs
    obtain ⟨⟨tv, sv⟩, i⟩ := x
    dsimp only
    split
    · exact offPolicy_addGeq (by decide)
    · split
      · exact offPolicy_addGeq (by decide)
      · exact AddsWhere.refl acc

theorem offPolicy_widenArgument (ar : Arena) (cs : ConstraintStore) (arg dp : Nat) :
    cs.AddsWhere Constraint.OffPolicy (widenArgument ar cs arg dp) := by
  unfold widenArgument
  split
  · exact AddsWhere.refl cs
  · refine addsWhere_foldl (fun acc x _ => ?_) cs
    obtain ⟨av, dv⟩ := x
    exact addsWhere_ite (offPolicy_addGeq (by decide))

theorem offPolicy_reconcileReturns (ar : Arena) (cs : ConstraintStore) (df cf : FunctionEntry) :
    cs.AddsWhere Constraint.OffPolicy (reconcileReturns ar cs df cf) := by
  have hw : ¬ Reason.ByPolicy Reason.wildBodyReturn := by decide
  unfold reconcileReturns
  split
  · split
    · dsimp only
      split
      · exact (ar.offPolicy_constrainSetToWild hw cs _).trans (ar.offPolicy_constrainSetToWild hw _ _)
      · split
        · split
          · split
            · exact offPolicy_widenReturn ar cs _ _
            · exact AddsWhere.refl cs
          · exact AddsWhere.refl cs
        · exact AddsWhere.refl cs
    · exact AddsWhere.refl cs
  · exact AddsWhere.refl cs

theorem offPolicy_reconcileParam (ar : Arena) (cs : ConstraintStore) (dps cps : SortedSet Nat) :
    cs.AddsWhere Constraint.OffPolicy (reconcileParam ar cs dps cps) := by
  unfold reconcileParam
  split
  · split
    · exact AddsWhere.refl cs
    · split
      · exact AddsWhere.refl cs
      · split
        · exact AddsWhere.refl cs
        · -- each checked argument in turn
          refine addsWhere_foldl (fun c arg _ => ?_) cs
          split
          · exact offPolicy_widenArgument ar c _ _
          · exact AddsWhere.refl c
  · exact AddsWhere.refl cs

theorem offPolicy_reconcilePair (ar : Arena) (cs : ConstraintStore) (d c : Nat) :
    cs.AddsWhere Constraint.OffPolicy (reconcilePair ar cs d c) := by
  unfold reconcilePair
  split
  · next df cf _ _ =>
    -- the returns first, then the parameters position by position from there
    refine (offPolicy_reconcileReturns ar cs df cf).trans ?_
    split
    · exact AddsWhere.refl _
    · exact addsWhere_foldl (fun cs x _ => offPolicy_reconcileParam ar cs x.1 x.2) _
  · exact AddsWhere.refl cs

theorem avoidsPolicy_reconcile : AvoidsPolicy reconcile := by
  unfold reconcile
  refine avoidsPolicy_get.bind fun _ => avoidsPolicy_get.bind fun _ =>
    (avoidsPolicy_forIn fun f _ => ?_).bind fun _ => avoidsPolicy_get.bind fun _ => avoidsPolicy_pure _
  refine (avoidsPolicy_outOfContextFunction f.key).bind fun _ => avoidsPolicy_ite ?_ (avoidsPolicy_pure _)
  refine (avoidsPolicy_modify fun q h => ?_).bind fun _ => avoidsPolicy_pure _
  exact ⟨h, offPolicy_reconcilePair q.arena q.store _ _⟩

/-! ## Where the policy's constraints fall -/

/-- The constraint is on slots of a function recorded under an extern name. -/
def OnExternFunction (p : Program) (c : Constraint) : Prop :=
  ∃ f ∈ p.functions.values, p.ExternName f.key.name ∧ c.OnSlotsOf p.arena f.entry

/-- Every constraint with a reason of the extern policy is on slots of a function recorded under
an extern name. -/
def PolicyAttributed (p : Program) : Prop :=
  ∀ e ∈ p.store.entries, Reason.ByPolicy e.2.reason → p.OnExternFunction e.2

theorem OnExternFunction.grow {c : Constraint} (h : p.OnExternFunction c) (hp : p.RefsOk) (hg : GrowsOnly p q) :
    q.OnExternFunction c := by
  obtain ⟨f, hf, hn, hon⟩ := h
  -- a recorded function's entry was in the arena, where the arena only grew
  have hlt : f.entry < p.arena.size := by
    obtain ⟨k, hk⟩ := SortedMap.mem_values.1 hf
    exact (hp.names.functions (k, f) hk).lt_size
  refine ⟨f, hg.tables.functions ▸ hf, ⟨hg.tables.bodies ▸ hn.1, hg.tables.options ▸ hn.2⟩, ?_⟩
  unfold Constraint.OnSlotsOf
  rw [hg.arena.varsOf_eq f.entry hlt]
  exact hon

theorem PolicyAttributed.of_offPolicy (h : ∀ e ∈ p.store.entries, e.2.OffPolicy) : p.PolicyAttributed :=
  fun e he hpol => absurd hpol (h e he)

theorem PolicyAttributed.grow (h : p.PolicyAttributed) (hp : p.RefsOk) (hg : GrowsOnly p q)
    (ha : p.store.AddsWhere Constraint.OffPolicy q.store) : q.PolicyAttributed := by
  intro e he hpol
  rcases ha e he with he | hoff
  · exact (h e he hpol).grow hp hg
  · exact absurd hpol hoff

theorem onSlotsOf_pinItype (p : Program) (x : Nat) :
    p.store.AddsWhere (Constraint.OnSlotsOf p.arena x) (p.pinItype x).2.store := by
  unfold pinItype
  split
  · next pe hp =>
    split
    · next q v hq hv =>
      show p.store.AddsWhere _ (p.store.addEq (.var v) (.const q) Reason.itype none).2
      refine addsWhere_addEq fun w hw => ?_
      have hw' : w = v := by simpa [Relation.mkEq, Relation.vars, Atom.asVar?] using hw
      rw [hw']
      exact Arena.mem_varsOf_of_pointer hp (List.mem_of_mem_head? hv)
    · exact AddsWhere.refl _
  · exact AddsWhere.refl _

theorem onSlotsOf_forceWild (p : Program) (x : Nat) (reason : String) (loc : Option SourceLoc) :
    p.store.AddsWhere (Constraint.OnSlotsOf p.arena x) (p.forceWild x reason loc).store :=
  (p.arena.addsWhere_constrainToWild p.store x reason loc).mono fun _ h => h.2

theorem onSlotsOf_forceInnerLevels (p : Program) (x : Nat) (reason : String) (hrefs : p.arena.RefsBelow) :
    p.store.AddsWhere (Constraint.OnSlotsOf p.arena x) (p.forceInnerLevels x reason).store := by
  unfold forceInnerLevels
  split
  · next pe hget =>
    have hp : p.arena.pointer? x = some pe := Arena.pointer?_eq_some.2 hget
    -- the levels below the outermost, then the embedded signature
    have hfold := foldl_keeps
      (P := fun q : Program => q.arena = p.arena ∧ p.store.AddsWhere (Constraint.OnSlotsOf p.arena x) q.store)
      (g := fun (q : Program) v => { q with store := (q.store.addWild v reason none).2 }) (l := pe.slots.drop 1)
      (fun v hv q hq => ⟨hq.1, hq.2.trans (addsWhere_addGeq fun w hw => by
        rw [List.mem_singleton.1 hw]
        exact Arena.mem_varsOf_of_pointer hp (List.mem_of_mem_drop hv))⟩) p ⟨rfl, AddsWhere.refl _⟩
    set q := (pe.slots.drop 1).foldl (fun (q : Program) v => { q with store := (q.store.addWild v reason none).2 }) p
    split
    · next g hg =>
      have hemb := onSlotsOf_forceWild q g reason none
      rw [hfold.1] at hemb
      exact hfold.2.trans (hemb.mono fun c hc => hc.of_child hrefs (by simp [Arena.children, hget, hg]))
    · exact hfold.2
  · exact onSlotsOf_forceWild p x reason none
  · exact AddsWhere.refl _

theorem onSlotsOf_externReturn (q : Program) (r : Nat) (hrefs : q.arena.RefsBelow) :
    q.store.AddsWhere (Constraint.OnSlotsOf q.arena r)
      (if (q.pinItype r).1 then (q.pinItype r).2.forceInnerLevels r Reason.externReturn
        else (q.pinItype r).2.forceWild r Reason.externReturn none).store := by
  have ha := arena_pinItype q r
  have hpin := onSlotsOf_pinItype q r
  split
  · have h := onSlotsOf_forceInnerLevels (q.pinItype r).2 r Reason.externReturn (ha ▸ hrefs)
    rw [ha] at h
    exact hpin.trans h
  · have h := onSlotsOf_forceWild (q.pinItype r).2 r Reason.externReturn none
    rw [ha] at h
    exact hpin.trans h

theorem onSlotsOf_externParam (q : Program) (x : Nat) (hrefs : q.arena.RefsBelow) :
    q.store.AddsWhere (Constraint.OnSlotsOf q.arena x)
      ((q.pinItype x).2.forceInnerLevels x Reason.externParam).store := by
  have ha := arena_pinItype q x
  have h := onSlotsOf_forceInnerLevels (q.pinItype x).2 x Reason.externParam (ha ▸ hrefs)
  rw [ha] at h
  exact (onSlotsOf_pinItype q x).trans h

theorem onSlotsOf_applyExternPolicy (p : Program) (id : Nat) (hrefs : p.arena.RefsBelow) :
    p.store.AddsWhere (Constraint.OnSlotsOf p.arena id) (p.applyExternPolicy id).store := by
  unfold applyExternPolicy
  split
  · exact AddsWhere.refl _
  · next f hf =>
    have hchild := Arena.children_of_function hf
    -- each step keeps the arena and adds on the slots of one return or parameter alternative
    have hret := foldl_keeps
      (P := fun q : Program => q.arena = p.arena ∧ p.store.AddsWhere (Constraint.OnSlotsOf p.arena id) q.store)
      (g := fun q r => if (q.pinItype r).1 then (q.pinItype r).2.forceInnerLevels r Reason.externReturn
        else (q.pinItype r).2.forceWild r Reason.externReturn none)
      (fun r hr q hq => by
        have h := onSlotsOf_externReturn q r (hq.1 ▸ hrefs)
        rw [hq.1] at h
        refine ⟨?_, hq.2.trans (h.mono fun c hc => hc.of_child hrefs (hchild ▸ List.mem_append_left _ hr))⟩
        show (if (q.pinItype r).1 then (q.pinItype r).2.forceInnerLevels r Reason.externReturn
          else (q.pinItype r).2.forceWild r Reason.externReturn none).arena = p.arena
        split
        · rw [arena_forceInnerLevels, arena_pinItype, hq.1]
        · exact (arena_pinItype q r).trans hq.1)
      p ⟨rfl, AddsWhere.refl _⟩
    have hpar := foldl_keeps
      (P := fun q : Program => q.arena = p.arena ∧ p.store.AddsWhere (Constraint.OnSlotsOf p.arena id) q.store)
      (g := fun q x => (q.pinItype x).2.forceInnerLevels x Reason.externParam)
      (fun x hx q hq => by
        have h := onSlotsOf_externParam q x (hq.1 ▸ hrefs)
        rw [hq.1] at h
        refine ⟨?_, hq.2.trans (h.mono fun c hc => hc.of_child hrefs (hchild ▸ List.mem_append_right _ hx))⟩
        rw [arena_forceInnerLevels, arena_pinItype, hq.1])
      _ hret
    exact hpar.2

theorem forIn_externsAttributed {g : String → PUnit → ProgramM (ForInStep PUnit)}
    (hg : ∀ x q r q', (g x PUnit.unit).run q = .ok r q' → r = .yield PUnit.unit ∧
      q' = ((q.functions.values.filter fun f => f.key.name == x).map FunctionDecl.entry).foldl applyExternPolicy q) :
    ∀ (l : List String) (q q' : Program), q.arena.RefsBelow → (forIn l PUnit.unit g).run q = .ok PUnit.unit q' →
      q.store.AddsWhere (fun c => ∃ f ∈ q.functions.values, f.key.name ∈ l ∧ c.OnSlotsOf q.arena f.entry)
        q'.store := by
  intro l
  induction l with
  | nil =>
    intro q q' _ h
    cases h
    exact AddsWhere.refl _
  | cons x l ih =>
    intro q q' hrefs h
    rw [List.forIn_cons] at h
    obtain ⟨r, q₁, h₁, h₂⟩ := run_bind_ok h
    obtain ⟨rfl, rfl⟩ := hg x q r q₁ h₁
    set ids := (q.functions.values.filter fun f => f.key.name == x).map FunctionDecl.entry
    have ha₁ : (ids.foldl applyExternPolicy q).arena = q.arena :=
      arena_foldl (fun id q => arena_applyExternPolicy q id) q
    have ht₁ : SameTables q (ids.foldl applyExternPolicy q) :=
      sameTables_foldl (fun id _ q => sameTables_applyExternPolicy q id) q
    -- the functions of `x` first, each on the slots its entry reaches
    have hx := foldl_keeps (P := fun q' : Program => q'.arena = q.arena ∧ q.store.AddsWhere
        (fun c => ∃ f : FunctionDecl, f ∈ q.functions.values ∧ f.key.name ∈ x :: l ∧ c.OnSlotsOf q.arena f.entry)
        q'.store)
      (g := applyExternPolicy) (l := ids) (fun id hid q₀ hq₀ => by
        obtain ⟨f, hf, rfl⟩ := List.mem_map.1 hid
        obtain ⟨hf, hname⟩ := List.mem_filter.1 hf
        have h := onSlotsOf_applyExternPolicy q₀ f.entry (hq₀.1 ▸ hrefs)
        rw [hq₀.1] at h
        refine ⟨(arena_applyExternPolicy q₀ f.entry).trans hq₀.1, hq₀.2.trans (h.mono fun c hc => ?_)⟩
        exact ⟨f, hf, List.mem_cons.2 (.inl (beq_iff_eq.1 hname)), hc⟩) q ⟨rfl, AddsWhere.refl _⟩
    have hl := ih _ q' (ha₁ ▸ hrefs) h₂
    rw [ha₁, ht₁.functions] at hl
    refine hx.2.trans (hl.mono ?_)
    rintro c ⟨f, hf, hn, hc⟩
    exact ⟨f, hf, List.mem_cons_of_mem x hn, hc⟩

theorem policyAttributed_of_walk {g : String → PUnit → ProgramM (ForInStep PUnit)}
    (hg : ∀ x q r q', (g x PUnit.unit).run q = .ok r q' → r = .yield PUnit.unit ∧
      q' = ((q.functions.values.filter fun f => f.key.name == x).map FunctionDecl.entry).foldl applyExternPolicy q)
    {q₀ : Program} {u : PUnit} (hp : p.RefsOk) (ha : p.PolicyAttributed) (hgrow : GrowsOnly p q)
    (hoff : p.store.AddsWhere Constraint.OffPolicy q₀.store) (hrefs : q.arena.RefsBelow)
    (h : (forIn ((q₀.bodies.toList.filter fun x => !x.2 && !q₀.options.isSafeExtern x.1).map Prod.fst)
      PUnit.unit g).run q₀ = .ok u q) : q.PolicyAttributed := by
  obtain ⟨ha₀, ht₀, -, -⟩ := forIn_externsAsked hg _ q₀ q hrefs h
  have hwalk := forIn_externsAttributed hg _ q₀ q (ha₀ ▸ hrefs) h
  intro e he hpol
  rcases hwalk e he with he | ⟨f, hf, hn, hon⟩
  · -- a constraint from before the walk was one of `p`
    rcases hoff e he with he | hoff'
    · exact (ha e he hpol).grow hp hgrow
    · exact absurd hpol hoff'
  · -- one the walk added, for a function of an extern name
    have hn' := mem_externs_iff.1 hn
    exact ⟨f, ht₀.functions ▸ hf, ⟨ht₀.bodies ▸ hn'.1, ht₀.options ▸ hn'.2⟩, ha₀ ▸ hon⟩

theorem policyAttributed_linkFunctions {r : Nat × Nat} (hp : p.RefsOk) (hf : p.ForcedOffPolicy)
    (ha : p.PolicyAttributed) (h : linkFunctions.run p = .ok r q) : q.PolicyAttributed := by
  have hq := ((keepsRefs_linkFunctions (n := 0)).run_ok hp (Nat.zero_le _) h).1
  have hgrow := growsOnly_of_keeps keeps_linkFunctions keepsTables_linkFunctions hp.wf
  rw [h, stateOf_ok] at hgrow
  unfold linkFunctions at h
  rw [run_bind, run_get] at h
  dsimp only at h
  split at h
  on_goal 1 =>
    -- equating the declarations of each global function adds nothing of the policy
    rw [run_bind, run_get] at h
    dsimp only at h
    obtain ⟨B', q₁, h₁, h⟩ := run_bind_ok h
    obtain ⟨k, q₂, h₂, h⟩ := run_bind_ok h
    have hoff₁ : q₁.ForcedOffPolicy ∧ p.store.AddsWhere Constraint.OffPolicy q₁.store := by
      refine AvoidsPolicy.run_ok ?_ hf h₁
      exact avoidsPolicy_forIn fun def_ B => avoidsPolicy_get.bind fun _ =>
        avoidsPolicy_ite ((avoidsPolicy_outOfContextFunction def_).bind fun _ => avoidsPolicy_pure _)
          (avoidsPolicy_pure _)
    have hoff₂ : q₂.ForcedOffPolicy ∧ q₁.store.AddsWhere Constraint.OffPolicy q₂.store := by
      refine AvoidsPolicy.run_ok ?_ hoff₁.1 h₂
      exact avoidsPolicy_forIn fun decls n => (avoidsPolicy_equateInSequence decls none).bind fun _ =>
        avoidsPolicy_pure _
    have hoff := hoff₁.2.trans hoff₂.2
  on_goal 2 =>
    have hoff : p.store.AddsWhere Constraint.OffPolicy p.store := AddsWhere.refl _
  all_goals
    rw [run_bind, run_get] at h
    dsimp only at h
    obtain ⟨u, q₃, h₃, h⟩ := run_bind_ok h
    rw [run_pure] at h
    cases h
    refine policyAttributed_of_walk (fun x q r q' hb => ?_) hp ha hgrow hoff hq.refs h₃
    -- the walk's step applies the policy to the functions of one name
    rw [run_bind, run_get] at hb
    dsimp only at hb
    rw [run_bind, run_modify] at hb
    dsimp only at hb
    rw [run_pure] at hb
    cases hb
    exact ⟨rfl, rfl⟩

end Program

namespace Session

open Program

variable {s s' s₀ s₁ s₂ : Session} {mayFail : Session → Prop} {facts : List Fact} {st : LinkStats}
  {sum : SolveSummary} {o : Options}

theorem solveStore_offPolicy (hw : s.program.Wf) (h : s.program.ForcedOffPolicy) {n : Nat}
    (hr : solveStore.run s = .ok n s') :
    s'.program.ForcedOffPolicy ∧ s.program.store.AddsWhere Constraint.OffPolicy s'.program.store := by
  have hg := solveStore_growsOnly hw hr
  obtain ⟨n', p, hr', -, -, hent⟩ := solveStore_run hw
  rw [hr'] at hr
  cases hr
  exact ⟨h.of_sameTables hg.tables, ConstraintStore.addsWhere_of_entries hent⟩

theorem reconcileRounds_offPolicy (n : Nat) :
    ∀ (d ps : Nat) (s s' : Session) (r : Nat × Nat), s.program.Wf → s.program.ForcedOffPolicy →
      (reconcileRounds n d ps).run s = .ok r s' →
        s'.program.ForcedOffPolicy ∧ s.program.store.AddsWhere Constraint.OffPolicy s'.program.store := by
  induction n with
  | zero =>
    intro d ps s s' r _ h hr
    cases hr
    exact ⟨h, ConstraintStore.AddsWhere.refl _⟩
  | succ n ih =>
    intro d ps s s' r hw h hr
    unfold reconcileRounds at hr
    rw [run_bind, run_onProgram] at hr
    obtain ⟨b, p₁, hr₁, hw₁, -, -⟩ := reconcile_run hw
    have h₁ := avoidsPolicy_reconcile.run_ok h hr₁
    rw [hr₁] at hr
    dsimp only at hr
    cases b with
    | false =>
      cases hr
      exact h₁
    | true =>
      -- a round that added constraints is followed by a solve and the remaining rounds
      rw [if_neg (by decide), run_bind] at hr
      obtain ⟨more, p₂, hr₂, hw₂, -, -⟩ := solveStore_run (s := { s with program := p₁ }) hw₁
      have h₂ := solveStore_offPolicy (s := { s with program := p₁ }) hw₁ h₁.1 hr₂
      rw [hr₂] at hr
      have h₃ := ih _ _ _ _ _ hw₂ h₂.1 hr
      exact ⟨h₃.1, h₁.2.trans (h₂.2.trans h₃.2)⟩

theorem build_policyAttributed (hb : (build facts).run (create o) = .ok st s₁) :
    s₁.program.PolicyAttributed ∧ s₁.program.ForcedOffPolicy := by
  obtain ⟨u, p₁, r₁, p₂, r₂, hA, h₁, h₂, hp₁, hp₂, -⟩ := build_ok_refs (refsOk_create o) hb
  -- a fresh session records no function and no constraint
  have hf₀ : (create o).program.ForcedOffPolicy := fun _ he => nomatch he
  have hA' := (avoidsPolicy_addFacts facts).run_ok hf₀ hA
  have ha₁ : p₁.PolicyAttributed := PolicyAttributed.of_offPolicy fun e he =>
    (hA'.2 e he).resolve_left fun h => nomatch h
  -- grouping declarations adds nothing of the policy
  have h₁' := avoidsPolicy_linkGroups.run_ok hA'.1 h₁
  have hg₁ := growsOnly_of_keeps keeps_linkGroups keepsTables_linkGroups hp₁.wf
  rw [h₁, stateOf_ok] at hg₁
  have ha₂ := ha₁.grow hp₁ hg₁ h₁'.2
  have ht₂ := keepsTables_linkFunctions p₂
  rw [h₂, stateOf_ok] at ht₂
  exact ⟨policyAttributed_linkFunctions hp₂ h₁'.1 ha₂ h₂, h₁'.1.of_sameTables ht₂⟩

section Table

variable [UnifyTable]

theorem solve_offPolicy (hw : s.program.Wf) (h : s.program.ForcedOffPolicy) {r : SolveSummary}
    (hr : solve.run s = .ok r s') : s.program.store.AddsWhere Constraint.OffPolicy s'.program.store := by
  obtain ⟨prog, built, groups⟩ := s
  unfold solve at hr
  rw [run_bind, run_get] at hr
  dsimp only at hr
  split at hr
  · cases hr
  rw [run_bind] at hr
  obtain ⟨n, p₁, hr₁, hw₁, -, -⟩ := solveStore_run (s := ⟨prog, built, groups⟩) hw
  have h₁ := solveStore_offPolicy hw h hr₁
  rw [hr₁] at hr
  dsimp only at hr
  rw [run_bind, run_get] at hr
  dsimp only at hr
  rw [run_bind] at hr
  cases hr₂ : (reconcileRounds p₁.options.maxReconcileRounds 0 n).run ⟨p₁, built, groups⟩ with
  | error e s₂ => rw [hr₂] at hr; cases hr
  | ok r₂ s₂ =>
    rw [hr₂] at hr
    cases hr
    exact h₁.2.trans (reconcileRounds_offPolicy _ _ _ _ s₂ _ hw₁ h₁.1 hr₂).2

/-- After a build and a solve, every untrusted function never seen with a body is solved as the
extern policy asks; after a first build the policy constrains only such functions. -/
theorem extern_functions_follow_policy (hr : Reachable mayFail o s₀)
    (hb : (build facts).run s₀ = .ok st s₁) (hs : solve.run s₁ = .ok sum s₂) :
    (∀ f ∈ s₂.program.functions.values, s₂.program.ExternName f.key.name →
        ∀ fe, s₂.program.arena.function? f.entry = some fe →
          (∀ r ∈ fe.returns.toList, s₂.program.arena.ExternSolved s₂.program.store r ∧
            ((∀ pe, s₂.program.arena.pointer? r = some pe → pe.itype.bind Qualifier.ofItype? = none) →
              s₂.program.arena.AllWild s₂.program.store r)) ∧
          ∀ x ∈ fe.params.flatMap SortedSet.toList, s₂.program.arena.ExternSolved s₂.program.store x) ∧
      (s₀ = create o → s₂.program.PolicyAttributed) := by
  refine ⟨externs_solved hr.refsOk hb hs, ?_⟩
  rintro rfl
  obtain ⟨-, -, -, -, -, -, -, -, -, -, hp₁⟩ := build_ok_refs (refsOk_create o) hb
  obtain ⟨ha, hf⟩ := build_policyAttributed hb
  exact ha.grow hp₁ (solve_growsOnly hp₁.wf hs) (solve_offPolicy hp₁.wf hf hs)

end Table

/-- A function declared with an annotated pointer return and a pointer parameter, never with a
body: the build and the solve succeed, and the policy holds of it. -/
theorem extern_functions_follow_policy_of_declaration :
    let sig : FunctionShape := ⟨⟨"char", [.pointer], none⟩, [⟨"x", ⟨"int", [.pointer], none⟩, none, none⟩], true, false⟩
    let facts : List Fact :=
      [.declare { key := ⟨"a.h", 1, 1, "g"⟩, kind := .function, isGlobal := true, itype := some "_Ptr<char>",
                  ty := ⟨"", [], some sig⟩ }]
    let s₁ := stateOf ((build facts).run (create {}))
    let s₂ := stateOf (solve.run s₁)
    Reachable (fun _ => True) {} (create {}) ∧
      (∃ st, (build facts).run (create {}) = .ok st s₁) ∧ (∃ sum, solve.run s₁ = .ok sum s₂) ∧
      (∀ f ∈ s₂.program.functions.values, s₂.program.ExternName f.key.name →
        ∀ fe, s₂.program.arena.function? f.entry = some fe →
          (∀ r ∈ fe.returns.toList, s₂.program.arena.ExternSolved s₂.program.store r ∧
            ((∀ pe, s₂.program.arena.pointer? r = some pe → pe.itype.bind Qualifier.ofItype? = none) →
              s₂.program.arena.AllWild s₂.program.store r)) ∧
          ∀ x ∈ fe.params.flatMap SortedSet.toList, s₂.program.arena.ExternSolved s₂.program.store x) ∧
      s₂.program.PolicyAttributed := by
  intro sig facts s₁ s₂
  have hr₁ : Reachable (fun _ => True) {} s₁ :=
    Relation.ReflTransGen.single (Step.build (create {}) facts fun _ _ _ => trivial)
  -- the build is read off by the kernel: it succeeds
  obtain ⟨st, hb⟩ : ∃ st, (build facts).run (create {}) = .ok st s₁ := by
    have hok : (match (build facts).run (create {}) with
      | .ok _ _ => true
      | .error _ _ => false) = true := by decide +kernel
    cases h : (build facts).run (create {}) with
    | ok st s =>
      have hs₁ : s₁ = s := by
        show stateOf ((build facts).run (create {})) = s
        rw [h, stateOf_ok]
      exact ⟨st, by rw [hs₁]⟩
    | error e s =>
      rw [h] at hok
      cases hok
  -- the solve is read off its run lemma
  obtain ⟨sum, hs⟩ : ∃ sum, solve.run s₁ = .ok sum s₂ := by
    rcases solve_run hr₁.wf with ⟨hnb, -⟩ | ⟨-, r, p, hr, -⟩
    · exact absurd hnb (by decide +kernel)
    · refine ⟨r, ?_⟩
      show solve.run s₁ = .ok r (stateOf (solve.run s₁))
      rw [hr, stateOf_ok]
  have hpol := extern_functions_follow_policy (Relation.ReflTransGen.refl : Reachable (fun _ => True) {} (create {})) hb hs
  exact ⟨.refl, ⟨st, hb⟩, ⟨sum, hs⟩, hpol.1, hpol.2 rfl⟩

/-- The pin of a recognised interop annotation bounds the outermost slot from below only: pointer
arithmetic on what an extern `_Ptr<char>` function returns raises the slot to `arr`. -/
theorem itype_pin_only_bounds_below :
    let gKey : DeclKey := ⟨"a.h", 1, 1, "g"⟩
    let facts : List Fact :=
      [.declare { key := gKey, kind := .function, isGlobal := true, itype := some "_Ptr<char>",
                  ty := ⟨"", [], some ⟨⟨"char", [.pointer], none⟩, [], true, false⟩⟩ },
       .arithmetic (.call (.decl gKey false)) none]
    let p := (stateOf (solve.run (stateOf ((build facts).run (create {}))))).program
    ∃ f ∈ p.functions.values, p.ExternName f.key.name ∧ ∃ fe, p.arena.function? f.entry = some fe ∧
      ∃ r ∈ fe.returns.toList, ∃ pe, p.arena.pointer? r = some pe ∧
        pe.itype.bind Qualifier.ofItype? = some .ptr ∧ ∃ v, pe.slots.head? = some v ∧
          p.store.assignment v = .arr := by
  decide +kernel

theorem later_body_keeps_extern_constraint :
    let gTy : TypeShape := TypeShape.ofSignature (TypeShape.pointer "int" 1) []
    let decl := Fact.declare { key := ⟨"a.h", 1, 1, "g"⟩, kind := .function, isGlobal := true, ty := gTy }
    let defn := Fact.declare
      { key := ⟨"a.c", 1, 1, "g"⟩, kind := .function, isGlobal := true, isDefinition := true, ty := gTy }
    let p := (stateOf (solve.run (stateOf ((build [defn]).run (stateOf ((build [decl]).run (create {}))))))).program
    ("g", true) ∈ p.bodies.toList ∧ ¬ p.PolicyAttributed := by
  intro gTy decl defn p
  have hp : ("g", true) ∈ p.bodies.toList ∧ (∃ c ∈ p.store.entries, c.2.reason = Reason.externReturn) ∧
      ∀ f ∈ p.functions.values, ¬ p.ExternName f.key.name := by decide +kernel
  obtain ⟨hbody, ⟨c, hc, hreason⟩, hnone⟩ := hp
  refine ⟨hbody, fun h => ?_⟩
  obtain ⟨f, hf, hn, -⟩ := h c hc (.inl hreason)
  exact hnone f hf hn

end Session

end CheckedPointers
