import CheckedPointers.Proofs.Linking
import CheckedPointers.Proofs.ReconcileRound
import CheckedPointers.Proofs.SessionBounds
import CheckedPointers.Proofs.Ascending

/-!
# Linked function declarations agree

Unless separate declarations are kept apart, linking equates the declarations of each global
function in sequence (`Program.linkFunctions`): its global non-defining declarations in key order,
then the declarations made up for its global definitions without one
(`Program.functionSequence`). Equating two function entries equates every return alternative of
one with every return alternative of the other; it equates their parameters position by position
when they have as many, forces every slot of both to `wild` when they have not and both are
prototyped, and leaves the parameters alone otherwise (`Arena.FnEquates`).

Agreement between pointers (`ConstraintStore.Agree`) is an equivalence on what it relates, so in a
closed store the returns of the whole sequence agree, and so do the parameters at each position of
any two declarations with as many parameters, provided every declaration is prototyped and has one
pointer entry for its return and for each parameter (`Session.function_declarations_agree`). A
declaration without a prototype and with another number of parameters is equated with its
neighbours on their returns only, and the parameters on either side of it need not agree
(`Session.unprototyped_declaration_splits_parameters`).
-/

namespace CheckedPointers

open ConstraintStore

namespace ConstraintStore

variable {cs cs' : ConstraintStore} {xs ys zs : List Nat}

theorem Agree.symm (h : cs.Agree xs ys) : cs.Agree ys xs := by
  rcases h with h | h
  · exact .inl h.symm
  · exact .inr fun v hv => h v (List.mem_append.2 (List.mem_append.1 hv).symm)

theorem Agree.trans (h₁ : cs.Agree xs ys) (h₂ : cs.Agree ys zs) : cs.Agree xs zs := by
  rcases h₁ with h₁ | h₁ <;> rcases h₂ with h₂ | h₂
  · exact .inl (h₁.trans h₂)
  · have hy : ∀ v ∈ ys, cs.assignment v = .wild := fun v hv => h₂ v (List.mem_append_left _ hv)
    refine .inr fun v hv => ?_
    rcases List.mem_append.1 hv with hv | hv
    · exact wild_of_map_eq h₁ hy v hv
    · exact h₂ v (List.mem_append_right _ hv)
  · have hy : ∀ v ∈ ys, cs.assignment v = .wild := fun v hv => h₁ v (List.mem_append_right _ hv)
    refine .inr fun v hv => ?_
    rcases List.mem_append.1 hv with hv | hv
    · exact h₁ v (List.mem_append_left _ hv)
    · exact wild_of_map_eq h₂.symm hy v hv
  · exact .inr fun v hv => (List.mem_append.1 hv).elim (fun hv => h₁ v (List.mem_append_left _ hv))
      fun hv => h₂ v (List.mem_append_right _ hv)

theorem Agree.map_eq (h : cs.Agree xs ys) (hl : xs.length = ys.length) :
    xs.map cs.assignment = ys.map cs.assignment := by
  rcases h with h | h
  · exact h
  · -- both chains are `wild` at every level, and as long
    have hx : xs.map cs.assignment = List.replicate xs.length .wild := by
      refine List.eq_replicate_iff.2 ⟨List.length_map .., fun q hq => ?_⟩
      obtain ⟨v, hv, rfl⟩ := List.mem_map.1 hq
      exact h v (List.mem_append_left _ hv)
    have hy : ys.map cs.assignment = List.replicate ys.length .wild := by
      refine List.eq_replicate_iff.2 ⟨List.length_map .., fun q hq => ?_⟩
      obtain ⟨v, hv, rfl⟩ := List.mem_map.1 hq
      exact h v (List.mem_append_right _ hv)
    rw [hx, hy, hl]

/-- Agreeing pointers with different numbers of slots are `wild` throughout. -/
theorem Agree.wild (h : cs.Agree xs ys) (hl : xs.length ≠ ys.length) :
    ∀ v ∈ xs ++ ys, cs.assignment v = .wild := by
  rcases h with h | h
  · exact absurd (by simpa using congrArg List.length h) hl
  · exact h

end ConstraintStore

namespace Arena

variable {ar ar' : Arena} {cs cs' : ConstraintStore} {a b n : Nat} {xs ys : SortedSet Nat}
  {fa fb : FunctionEntry} {reason : String} {loc : Option SourceLoc}

/-! ## Equating function entries -/

/-- What equating every alternative of `xs` with every alternative of `ys` asks of a store: each
two distinct pointer alternatives are equated. -/
def SetsEquate (ar : Arena) (cs : ConstraintStore) (xs ys : SortedSet Nat) : Prop :=
  ∀ x ∈ xs.toList, ∀ y ∈ ys.toList, x ≠ y → ∀ px py, ar.pointer? x = some px → ar.pointer? y = some py →
    cs.Equates px.slots py.slots

/-- Every slot of every pointer alternative of `s` is asked to be `wild`. -/
def WildAsked (ar : Arena) (cs : ConstraintStore) (s : SortedSet Nat) : Prop :=
  ∀ x ∈ s.toList, ∀ px, ar.pointer? x = some px → ∀ v ∈ px.slots, cs.Asks (.geq v .wild)

/-- What equating two function entries asks of a store: their returns are equated; their
parameters are equated position by position when they have as many, and every parameter of both is
`wild` when they have not and both are prototyped. -/
structure FnEquates (ar : Arena) (cs : ConstraintStore) (fa fb : FunctionEntry) : Prop where
  returns : ar.SetsEquate cs fa.returns fb.returns
  params : fa.params.length = fb.params.length → List.Forall₂ (ar.SetsEquate cs) fa.params fb.params
  arity : fa.params.length ≠ fb.params.length → fa.hasPrototype = true → fb.hasPrototype = true →
    ∀ s ∈ fa.params ++ fb.params, ar.WildAsked cs s

theorem SetsEquate.mono (h : ar.SetsEquate cs xs ys) (hp : cs.entries <+: cs'.entries) :
    ar.SetsEquate cs' xs ys :=
  fun x hx y hy hne px py hpx hpy => (h x hx y hy hne px py hpx hpy).mono hp

theorem WildAsked.mono {s : SortedSet Nat} (h : ar.WildAsked cs s) (hp : cs.entries <+: cs'.entries) :
    ar.WildAsked cs' s :=
  fun x hx px hpx v hv => (h x hx px hpx v hv).mono hp

theorem FnEquates.mono (h : ar.FnEquates cs fa fb) (hp : cs.entries <+: cs'.entries) :
    ar.FnEquates cs' fa fb where
  returns := h.returns.mono hp
  params hl := (h.params hl).imp fun _ _ h' => h'.mono hp
  arity hl hpa hpb s hs := (h.arity hl hpa hpb s hs).mono hp

theorem SetsEquate.extend (h : ar.SetsEquate cs xs ys) (he : ar.Extends ar')
    (hx : ∀ x ∈ xs.toList, x < ar.size) (hy : ∀ y ∈ ys.toList, y < ar.size) : ar'.SetsEquate cs xs ys := by
  intro x hx' y hy' hne px py hpx hpy
  obtain ⟨px₀, hpx₀, hsx⟩ := he.pointer?_of_lt (hx x hx') hpx
  obtain ⟨py₀, hpy₀, hsy⟩ := he.pointer?_of_lt (hy y hy') hpy
  rw [← hsx, ← hsy]
  exact h x hx' y hy' hne px₀ py₀ hpx₀ hpy₀

theorem WildAsked.extend {s : SortedSet Nat} (h : ar.WildAsked cs s) (he : ar.Extends ar')
    (hs : ∀ x ∈ s.toList, x < ar.size) : ar'.WildAsked cs s := by
  intro x hx px hpx v hv
  obtain ⟨px₀, hpx₀, hsx⟩ := he.pointer?_of_lt (hs x hx) hpx
  exact h x hx px₀ hpx₀ v (hsx ▸ hv)

theorem FnEquates.extend (h : ar.FnEquates cs fa fb) (he : ar.Extends ar') (hr : ar.RefsBelow)
    (ha : ar.function? a = some fa) (hb : ar.function? b = some fb) : ar'.FnEquates cs fa fb := by
  obtain ⟨hra, hpa⟩ := hr.function ha
  obtain ⟨hrb, hpb⟩ := hr.function hb
  refine ⟨h.returns.extend he hra hrb, fun hl => ?_, fun hl hpa' hpb' s hs => ?_⟩
  · refine (List.forall₂_iff_zip.2 ⟨hl, fun hxy => ?_⟩)
    exact (List.forall₂_iff_zip.1 (h.params hl)).2 hxy |>.extend he
      (hpa _ (List.of_mem_zip hxy).1) (hpb _ (List.of_mem_zip hxy).2)
  · refine (h.arity hl hpa' hpb' s hs).extend he ?_
    rcases List.mem_append.1 hs with hs | hs
    · exact hpa s hs
    · exact hpb s hs

theorem foldl_grows {β : Type} {P : β → ConstraintStore → Prop}
    (hP : ∀ x cs cs', P x cs → cs.Extends cs' → P x cs') {f : ConstraintStore → β → ConstraintStore} :
    ∀ l : List β, (∀ x ∈ l, ∀ cs, n ≤ cs.numVars → cs.Grows (f cs x) ∧ P x (f cs x)) →
      ∀ cs, n ≤ cs.numVars → cs.Grows (l.foldl f cs) ∧ ∀ x ∈ l, P x (l.foldl f cs)
  | [], _, cs, _ => ⟨Grows.refl cs, fun _ h => nomatch h⟩
  | x :: l, hf, cs, hcs => by
    obtain ⟨hg, hx⟩ := hf x List.mem_cons_self cs hcs
    obtain ⟨hg', hl⟩ := foldl_grows hP l (fun y hy => hf y (List.mem_cons_of_mem x hy)) (f cs x)
      (Nat.le_trans hcs hg.extends.numVars_le)
    refine ⟨hg.trans hg', fun y hy => ?_⟩
    rcases List.mem_cons.1 hy with rfl | hy
    · exact hP _ _ _ hx hg'.extends
    · exact hl y hy

theorem setsEquate_constrainEqSets (hs : ar.SlotsBelow n) (hr : reason ≠ Reason.arrayDecl)
    (xs ys : SortedSet Nat) (cs : ConstraintStore) (hcs : n ≤ cs.numVars) :
    cs.Grows (ar.constrainEqSets cs xs ys reason loc) ∧ ar.SetsEquate (ar.constrainEqSets cs xs ys reason loc) xs ys := by
  -- one alternative of `xs` against all of `ys`, then the next
  have hrow := foldl_grows (n := n) (P := fun x cs => ∀ y ∈ ys.toList, x ≠ y → ∀ px py,
      ar.pointer? x = some px → ar.pointer? y = some py → cs.Equates px.slots py.slots)
    (fun x cs cs' h he y hy hne px py hpx hpy => (h y hy hne px py hpx hpy).mono he.entries)
    (f := fun cs x => ys.toList.foldl (fun cs y => ar.constrainEq cs x y reason loc) cs)
    xs.toList (fun x _ cs hcs => ?_) cs hcs
  · exact ⟨hrow.1, fun x hx y hy => hrow.2 x hx y hy⟩
  · exact foldl_grows (n := n) (P := fun y cs => x ≠ y → ∀ px py,
        ar.pointer? x = some px → ar.pointer? y = some py → cs.Equates px.slots py.slots)
      (fun y cs cs' h he hne px py hpx hpy => (h hne px py hpx hpy).mono he.entries)
      (f := fun cs y => ar.constrainEq cs x y reason loc)
      ys.toList (fun y _ cs hcs => ⟨growsFrom_constrainEq hs hr x y cs hcs, fun hne px py hpx hpy =>
        equates_constrainEq (hs.mono hcs) hr hne hpx hpy⟩) cs hcs

theorem eqSets_eq (hx : ∀ i ∈ xs.toList, i < a) (hy : ∀ j ∈ ys.toList, j < b) (cs : ConstraintStore) :
    xs.toList.attach.foldl (fun cs i => ys.toList.attach.foldl (fun cs j =>
      if _h : i.1 < a ∧ j.1 < b then ar.constrainEq cs i.1 j.1 reason loc else cs) cs) cs =
      ar.constrainEqSets cs xs ys reason loc := by
  unfold constrainEqSets
  refine (List.foldl_ext _ (fun cs i => ys.toList.foldl (fun cs j => ar.constrainEq cs i.1 j reason loc) cs) cs
    fun cs i _ => ?_).trans
      (List.foldl_attach (f := fun cs i => ys.toList.foldl (fun cs j => ar.constrainEq cs i j reason loc) cs))
  exact (List.foldl_ext _ (fun cs j => ar.constrainEq cs i.1 j.1 reason loc) cs
    fun cs j _ => dif_pos ⟨hx i.1 i.2, hy j.1 j.2⟩).trans
      (List.foldl_attach (f := fun cs j => ar.constrainEq cs i.1 j reason loc))

theorem mem_varsOf_of_child_of_back {id c v : Nat} (hback : ∀ c ∈ ar.children id, c < id)
    (hc : c ∈ ar.children id) (hv : v ∈ (ar.varsOf c).toList) : v ∈ (ar.varsOf id).toList := by
  rw [varsOf_eq_of_back hback]
  -- the walk over the embedded entries only adds, and adds what `c` reaches when it meets `c`
  have hwalk : ∀ (l : List Nat) (acc : SortedSet Nat), (v ∈ acc.toList ∨ c ∈ l) →
      v ∈ (l.foldl (fun acc c => acc.union (ar.varsOf c)) acc).toList := by
    intro l
    induction l with
    | nil => exact fun acc h => h.resolve_right List.not_mem_nil
    | cons c' l ih =>
      intro acc h
      refine ih _ ?_
      rcases h with h | h
      · exact .inl (SortedSet.mem_union_left h)
      · rcases List.mem_cons.1 h with rfl | h
        · exact .inl (SortedSet.mem_union_right hv)
        · exact .inr h
  exact hwalk _ _ (.inr hc)

theorem mem_varsOf_of_child (hr : ar.RefsBelow) {id c v : Nat} (hc : c ∈ ar.children id)
    (hv : v ∈ (ar.varsOf c).toList) : v ∈ (ar.varsOf id).toList :=
  mem_varsOf_of_child_of_back (hr.back id) hc hv

theorem children_of_function (ha : ar.function? a = some fa) :
    ar.children a = fa.returns.toList ++ fa.params.flatMap SortedSet.toList := by
  simp [children, function?_eq_some.1 ha]

theorem RefsBelow.return_lt (hr : ar.RefsBelow) (ha : ar.function? a = some fa) {c : Nat}
    (hc : c ∈ fa.returns.toList) : c < a :=
  hr.back a c (by rw [children_of_function ha]; exact List.mem_append_left _ hc)

theorem RefsBelow.param_lt (hr : ar.RefsBelow) (ha : ar.function? a = some fa) {s : SortedSet Nat}
    (hs : s ∈ fa.params) {c : Nat} (hc : c ∈ s.toList) : c < a :=
  hr.back a c (by rw [children_of_function ha]; exact List.mem_append_right _ (List.mem_flatMap.2 ⟨s, hs, hc⟩))

theorem RefsBelow.function_lt {pa : PointerEntry} {f : Nat} (hr : ar.RefsBelow) (ha : ar.pointer? a = some pa)
    (hf : pa.function = some f) : f < a :=
  hr.back a f (by simp [children, pointer?_eq_some.1 ha, hf])

theorem fnEquates_constrainEq (hs : ar.SlotsBelow cs.numVars) (hrefs : ar.RefsBelow)
    (hr : reason ≠ Reason.arrayDecl) (hab : a ≠ b) (ha : ar.function? a = some fa) (hb : ar.function? b = some fb) :
    ar.FnEquates (ar.constrainEq cs a b reason loc) fa fb := by
  have hparam : ∀ {id f}, ar.function? id = some f → ∀ s ∈ f.params, ∀ c ∈ s.toList, c ∈ ar.children id :=
    fun hf s hs c hc => by
      rw [children_of_function hf]
      exact List.mem_append_right _ (List.mem_flatMap.2 ⟨s, hs, hc⟩)
  -- what the two functions embed comes before them, so every guard of the walks holds
  have hzipA : ∀ x ∈ fa.params.zip fb.params, ∀ i ∈ x.1.toList, i < a := fun x hx i hi =>
    hrefs.param_lt ha (List.of_mem_zip hx).1 hi
  have hzipB : ∀ x ∈ fa.params.zip fb.params, ∀ j ∈ x.2.toList, j < b := fun x hx j hj =>
    hrefs.param_lt hb (List.of_mem_zip hx).2 hj
  rw [constrainEq, if_neg (by simpa using hab)]
  simp only [function?_eq_some.1 ha, function?_eq_some.1 hb]
  rw [eqSets_eq (fun i hi => hrefs.return_lt ha hi) (fun j hj => hrefs.return_lt hb hj),
    List.foldl_ext _ (fun cs x => ar.constrainEqSets cs x.1 x.2 reason loc) _
      fun cs x hx => eqSets_eq (hzipA x hx) (hzipB x hx) cs]
  -- the returns first, whatever follows
  obtain ⟨hg₁, hret⟩ := setsEquate_constrainEqSets hs hr fa.returns fb.returns cs (Nat.le_refl _)
  generalize ar.constrainEqSets cs fa.returns fb.returns reason loc = cs₁ at hg₁ hret ⊢
  split
  · -- as many parameters: each position is equated
    next hl =>
    have hlen : fa.params.length = fb.params.length := by simpa using hl
    obtain ⟨hg₂, hpar⟩ := foldl_grows (n := cs.numVars) (P := fun (x : SortedSet Nat × SortedSet Nat) cs => ar.SetsEquate cs x.1 x.2)
      (fun x cs cs' h he => h.mono he.entries) (f := fun cs x => ar.constrainEqSets cs x.1 x.2 reason loc)
      (fa.params.zip fb.params) (fun x _ cs hcs => setsEquate_constrainEqSets hs hr x.1 x.2 cs hcs) cs₁
      hg₁.extends.numVars_le
    exact ⟨hret.mono hg₂.extends.entries, fun _ => List.forall₂_iff_zip.2 ⟨hlen, fun hxy => hpar _ hxy⟩,
      fun hne => absurd hlen hne⟩
  · next hl =>
    have hlen : fa.params.length ≠ fb.params.length := by simpa using hl
    split
    · -- both prototyped: every slot of both is forced to `wild`
      obtain ⟨hpA, hA⟩ := asks_constrainToWild ar cs₁ a Reason.arityMismatch loc
      obtain ⟨hpB, hB⟩ := asks_constrainToWild ar (ar.constrainToWild cs₁ a Reason.arityMismatch loc) b
        Reason.arityMismatch loc
      refine ⟨hret.mono (hpA.trans hpB), fun h => absurd h hlen, fun _ _ _ s hs' x hx px hpx v hv => ?_⟩
      have hvx : v ∈ (ar.varsOf x).toList := mem_varsOf_of_pointer hpx hv
      rcases List.mem_append.1 hs' with hs' | hs'
      · exact (hA v (mem_varsOf_of_child hrefs (hparam ha s hs' x hx) hvx)).mono hpB
      · exact hB v (mem_varsOf_of_child hrefs (hparam hb s hs' x hx) hvx)
    · -- not both prototyped: the parameters are left alone
      next hp =>
      exact ⟨hret, fun h => absurd h hlen, fun _ hpa hpb => absurd (by simp [hpa, hpb]) hp⟩

/-! ## Sequences of function entries -/

/-- What linking asked of the store for the entries `ids`, in order: each function entry is
equated with the next when that is a function entry too, unless the two are one entry. -/
def FnLinked (ar : Arena) (cs : ConstraintStore) (ids : List Nat) : Prop :=
  ids.IsChain fun a b => a ≠ b → ∀ fa fb, ar.function? a = some fa → ar.function? b = some fb →
    ar.FnEquates cs fa fb

variable {ids : List Nat}

theorem FnLinked.mono (h : ar.FnLinked cs ids) (hp : cs.entries <+: cs'.entries) : ar.FnLinked cs' ids :=
  h.imp fun ⦃_ _⦄ hab hne fa fb ha hb => (hab hne fa fb ha hb).mono hp

theorem Extends.function?_of_lt (h : ar.Extends ar') (hlt : a < ar.size) (hf : ar'.function? a = some fa) :
    ar.function? a = some fa := by
  obtain ⟨e, he⟩ : ∃ e, ar.get? a = some e := ⟨_, Array.getElem?_eq_getElem hlt⟩
  obtain ⟨e', he', hs⟩ := h.shape a e he
  rw [function?_eq_some.1 hf, Option.some.injEq] at he'
  subst he'
  rw [function?_eq_some, he, Entry.shape_eq_function hs.symm]

theorem FnLinked.extend (h : ar.FnLinked cs ids) (he : ar.Extends ar') (hr : ar.RefsBelow)
    (hlt : ∀ id ∈ ids, id < ar.size) : ar'.FnLinked cs ids := by
  refine h.imp_of_mem_imp fun a b ha hb hab hne fa fb hfa hfb => ?_
  have hfa₀ := he.function?_of_lt (hlt a ha) hfa
  have hfb₀ := he.function?_of_lt (hlt b hb) hfb
  exact (hab hne fa fb hfa₀ hfb₀).extend he hr hfa₀ hfb₀

/-! ## Agreement in a solved store

Built from a signature whose return and parameters are pointers, a function entry has one pointer
alternative for its return and for each parameter. For such entries, what equating asked holds in
a closed store as agreement of those pointers (`ConstraintStore.Agree`), and agreement is
transitive through entries of the same shape. -/

/-- The one alternative of a set, when it has exactly one and that is a pointer entry. -/
def singlePointer? (ar : Arena) (s : SortedSet Nat) : Option PointerEntry :=
  match s.toList with
  | [x] => ar.pointer? x
  | _ => none

/-- The return and each parameter of the function have one alternative, a pointer entry. -/
def plain (ar : Arena) (f : FunctionEntry) : Bool :=
  (ar.singlePointer? f.returns).isSome && f.params.all fun s => (ar.singlePointer? s).isSome

variable {s zs : SortedSet Nat} {fc : FunctionEntry} {c : Nat} {pe : PointerEntry}

theorem singlePointer?_eq_some : ar.singlePointer? s = some pe ↔ ∃ x, s.toList = [x] ∧ ar.pointer? x = some pe := by
  unfold singlePointer?
  split
  · next x hx => simp [hx]
  · next hx => simpa using fun x h => absurd h (hx x)

theorem plain_iff : ar.plain fa = true ↔
    (ar.singlePointer? fa.returns).isSome ∧ ∀ s ∈ fa.params, (ar.singlePointer? s).isSome := by
  simp [plain]

theorem highest_of_singlePointer? (cs : ConstraintStore) (h : ar.singlePointer? s = some pe) :
    ∃ x, ar.highest cs s = some x ∧ ar.solvedChain cs x = pe.slots.map cs.assignment := by
  obtain ⟨x, hx, hp⟩ := singlePointer?_eq_some.1 h
  exact ⟨x, by simp [highest, pick, hx], solvedChain_of_pointer hp⟩

/-- Two one-pointer sets agree in the store. -/
def SetAgree (ar : Arena) (cs : ConstraintStore) (xs ys : SortedSet Nat) : Prop :=
  ∀ px py, ar.singlePointer? xs = some px → ar.singlePointer? ys = some py → cs.Agree px.slots py.slots

/-- The pointer of a one-pointer set is `wild` throughout. -/
def SetWild (ar : Arena) (cs : ConstraintStore) (s : SortedSet Nat) : Prop :=
  ∀ px, ar.singlePointer? s = some px → ∀ v ∈ px.slots, cs.assignment v = .wild

theorem SetAgree.refl (ar : Arena) (cs : ConstraintStore) (s : SortedSet Nat) : ar.SetAgree cs s s := by
  intro px py hx hy
  rw [hx, Option.some.injEq] at hy
  subst hy
  exact Agree.refl cs _

theorem SetAgree.symm (h : ar.SetAgree cs xs ys) : ar.SetAgree cs ys xs :=
  fun px py hx hy => (h py px hy hx).symm

theorem SetAgree.trans (h₁ : ar.SetAgree cs xs ys) (h₂ : ar.SetAgree cs ys zs)
    (hy : (ar.singlePointer? ys).isSome) : ar.SetAgree cs xs zs := by
  obtain ⟨py, hpy⟩ := Option.isSome_iff_exists.1 hy
  exact fun px pz hx hz => (h₁ px py hx hpy).trans (h₂ py pz hpy hz)

theorem SetAgree.setWild (h : ar.SetAgree cs xs ys) (hy : (ar.singlePointer? ys).isSome)
    (hw : ar.SetWild cs ys) : ar.SetWild cs xs := by
  obtain ⟨py, hpy⟩ := Option.isSome_iff_exists.1 hy
  intro px hpx v hv
  rcases h px py hpx hpy with hm | hall
  · exact wild_of_map_eq hm (hw py hpy) v hv
  · exact hall v (List.mem_append_left _ hv)

theorem setAgree_of_setWild (hx : ar.SetWild cs xs) (hy : ar.SetWild cs ys) : ar.SetAgree cs xs ys :=
  fun px py hpx hpy => .inr fun v hv => (List.mem_append.1 hv).elim (hx px hpx v) (hy py hpy v)

theorem SetsEquate.setAgree (h : ar.SetsEquate cs xs ys) (hc : cs.Closed cs.env) : ar.SetAgree cs xs ys := by
  intro px py hx hy
  obtain ⟨x, hxs, hpx⟩ := singlePointer?_eq_some.1 hx
  obtain ⟨y, hys, hpy⟩ := singlePointer?_eq_some.1 hy
  by_cases hxy : x = y
  · -- one entry: the same pointer
    subst hxy
    rw [hpx, Option.some.injEq] at hpy
    subst hpy
    exact Agree.refl cs _
  · have hxm : x ∈ xs.toList := by rw [hxs]; exact List.mem_singleton_self x
    have hym : y ∈ ys.toList := by rw [hys]; exact List.mem_singleton_self y
    exact (h x hxm y hym hxy px py hpx hpy).agree hc

theorem WildAsked.setWild (h : ar.WildAsked cs s) (hc : cs.Closed cs.env) : ar.SetWild cs s := by
  intro px hpx v hv
  obtain ⟨x, hxs, hp⟩ := singlePointer?_eq_some.1 hpx
  have hxm : x ∈ s.toList := by rw [hxs]; exact List.mem_singleton_self x
  exact Qualifier.eq_wild_of_wild_le (hc.holds (h x hxm px hp v hv))

/-! ### Parameter lists -/

theorem forall₂_setAgree_symm {l₁ l₂ : List (SortedSet Nat)} (h : List.Forall₂ (ar.SetAgree cs) l₁ l₂) :
    List.Forall₂ (ar.SetAgree cs) l₂ l₁ :=
  List.Forall₂.flip (h.imp fun _ _ h => h.symm)

theorem forall₂_setAgree_trans : ∀ {l₁ l₂ l₃ : List (SortedSet Nat)}, List.Forall₂ (ar.SetAgree cs) l₁ l₂ →
    List.Forall₂ (ar.SetAgree cs) l₂ l₃ → (∀ s ∈ l₂, (ar.singlePointer? s).isSome) →
      List.Forall₂ (ar.SetAgree cs) l₁ l₃
  | _, _, _, .nil, .nil, _ => .nil
  | _, _, _, .cons h₁ t₁, .cons h₂ t₂, hm =>
    .cons (h₁.trans h₂ (hm _ List.mem_cons_self))
      (forall₂_setAgree_trans t₁ t₂ fun s hs => hm s (List.mem_cons_of_mem _ hs))

theorem forall₂_setWild : ∀ {l₁ l₂ : List (SortedSet Nat)}, List.Forall₂ (ar.SetAgree cs) l₁ l₂ →
    (∀ s ∈ l₂, (ar.singlePointer? s).isSome) → (∀ s ∈ l₂, ar.SetWild cs s) → ∀ s ∈ l₁, ar.SetWild cs s
  | _, _, .nil, _, _, _, hs => nomatch hs
  | _, _, .cons h t, hm, hw, s, hs => by
    rcases List.mem_cons.1 hs with rfl | hs
    · exact h.setWild (hm _ List.mem_cons_self) (hw _ List.mem_cons_self)
    · exact forall₂_setWild t (fun s hs => hm s (List.mem_cons_of_mem _ hs))
        (fun s hs => hw s (List.mem_cons_of_mem _ hs)) s hs

theorem forall₂_of_setWild : ∀ {l₁ l₂ : List (SortedSet Nat)}, l₁.length = l₂.length →
    (∀ s ∈ l₁, ar.SetWild cs s) → (∀ s ∈ l₂, ar.SetWild cs s) → List.Forall₂ (ar.SetAgree cs) l₁ l₂
  | [], [], _, _, _ => .nil
  | x :: _, y :: _, hl, hx, hy =>
    .cons (setAgree_of_setWild (hx x List.mem_cons_self) (hy y List.mem_cons_self))
      (forall₂_of_setWild (Nat.succ.inj hl) (fun s hs => hx s (List.mem_cons_of_mem _ hs))
        fun s hs => hy s (List.mem_cons_of_mem _ hs))

/-! ### Function entries -/

/-- Two function entries agree: their returns agree, and their parameters agree position by
position when they have as many, and are all `wild` when they have not. -/
structure FnAgree (ar : Arena) (cs : ConstraintStore) (fa fb : FunctionEntry) : Prop where
  returns : ar.SetAgree cs fa.returns fb.returns
  params : fa.params.length = fb.params.length → List.Forall₂ (ar.SetAgree cs) fa.params fb.params
  arity : fa.params.length ≠ fb.params.length → ∀ s ∈ fa.params ++ fb.params, ar.SetWild cs s

theorem FnAgree.refl (ar : Arena) (cs : ConstraintStore) (f : FunctionEntry) : ar.FnAgree cs f f :=
  ⟨SetAgree.refl ar cs _, fun _ => List.forall₂_same.2 fun s _ => SetAgree.refl ar cs s,
    fun h => absurd rfl h⟩

theorem FnAgree.symm (h : ar.FnAgree cs fa fb) : ar.FnAgree cs fb fa :=
  ⟨h.returns.symm, fun hl => forall₂_setAgree_symm (h.params hl.symm),
    fun hl s hs => h.arity (Ne.symm hl) s (List.mem_append.2 (List.mem_append.1 hs).symm)⟩

theorem FnAgree.trans (h₁ : ar.FnAgree cs fa fb) (h₂ : ar.FnAgree cs fb fc) (hb : ar.plain fb = true) :
    ar.FnAgree cs fa fc := by
  obtain ⟨hr, hp⟩ := plain_iff.1 hb
  have hwa : fa.params.length ≠ fb.params.length → ∀ s ∈ fa.params, ar.SetWild cs s :=
    fun hab s hs => h₁.arity hab s (List.mem_append_left _ hs)
  have hwb : fa.params.length ≠ fb.params.length ∨ fb.params.length ≠ fc.params.length →
      ∀ s ∈ fb.params, ar.SetWild cs s := by
    rintro (hab | hbc) s hs
    · exact h₁.arity hab s (List.mem_append_right _ hs)
    · exact h₂.arity hbc s (List.mem_append_left _ hs)
  have hwc : fb.params.length ≠ fc.params.length → ∀ s ∈ fc.params, ar.SetWild cs s :=
    fun hbc s hs => h₂.arity hbc s (List.mem_append_right _ hs)
  refine ⟨h₁.returns.trans h₂.returns hr, fun hac => ?_, fun hac => ?_⟩
  · by_cases hab : fa.params.length = fb.params.length
    · exact forall₂_setAgree_trans (h₁.params hab) (h₂.params (hab ▸ hac)) hp
    · -- the middle entry differs from both ends: all three are `wild`
      have hbc : fb.params.length ≠ fc.params.length := fun h => hab (hac.trans h.symm)
      exact forall₂_of_setWild hac (hwa hab) (hwc hbc)
  · have ha : ∀ s ∈ fa.params, ar.SetWild cs s := by
      by_cases hab : fa.params.length = fb.params.length
      · have hbc : fb.params.length ≠ fc.params.length := fun h => hac (hab.trans h)
        exact forall₂_setWild (h₁.params hab) hp (hwb (.inr hbc))
      · exact hwa hab
    have hc : ∀ s ∈ fc.params, ar.SetWild cs s := by
      by_cases hbc : fb.params.length = fc.params.length
      · have hab : fa.params.length ≠ fb.params.length := fun h => hac (h.trans hbc)
        exact forall₂_setWild (forall₂_setAgree_symm (h₂.params hbc)) hp (hwb (.inl hab))
      · exact hwc hbc
    intro s hs
    exact (List.mem_append.1 hs).elim (ha s) (hc s)

theorem FnEquates.fnAgree (h : ar.FnEquates cs fa fb) (hc : cs.Closed cs.env) (ha : fa.hasPrototype = true)
    (hb : fb.hasPrototype = true) : ar.FnAgree cs fa fb :=
  ⟨h.returns.setAgree hc, fun hl => (h.params hl).imp fun _ _ h => h.setAgree hc,
    fun hl s hs => (h.arity hl ha hb s hs).setWild hc⟩

/-- Two entries are function entries of one pointer per return and parameter, and agree. -/
def DeclsAgree (ar : Arena) (cs : ConstraintStore) (a b : Nat) : Prop :=
  ∃ fa fb, ar.function? a = some fa ∧ ar.function? b = some fb ∧ ar.plain fa = true ∧
    ar.plain fb = true ∧ ar.FnAgree cs fa fb

theorem DeclsAgree.symm (h : ar.DeclsAgree cs a b) : ar.DeclsAgree cs b a := by
  obtain ⟨fa, fb, ha, hb, hpa, hpb, h⟩ := h
  exact ⟨fb, fa, hb, ha, hpb, hpa, h.symm⟩

theorem DeclsAgree.trans (h₁ : ar.DeclsAgree cs a b) (h₂ : ar.DeclsAgree cs b c) : ar.DeclsAgree cs a c := by
  obtain ⟨fa, fb, ha, hb, hpa, hpb, h₁⟩ := h₁
  obtain ⟨fb', fc, hb', hc, -, hpc, h₂⟩ := h₂
  rw [hb, Option.some.injEq] at hb'
  subst hb'
  exact ⟨fa, fc, ha, hc, hpa, hpc, h₁.trans h₂ hpb⟩

instance : Std.Symm (ar.DeclsAgree cs) := ⟨fun _ _ h => h.symm⟩

instance : Trans (ar.DeclsAgree cs) (ar.DeclsAgree cs) (ar.DeclsAgree cs) := ⟨DeclsAgree.trans⟩

theorem FnLinked.declsAgree (h : ar.FnLinked cs ids) (hc : cs.Closed cs.env)
    (hplain : ∀ a ∈ ids, (ar.function? a).any fun f => ar.plain f && f.hasPrototype) :
    ∀ a ∈ ids, ∀ b ∈ ids, ar.DeclsAgree cs a b := by
  have hfun : ∀ a ∈ ids, ∃ f, ar.function? a = some f ∧ ar.plain f = true ∧ f.hasPrototype = true := by
    intro a ha
    have h := hplain a ha
    cases hf : ar.function? a with
    | none => rw [hf] at h; cases h
    | some f =>
      rw [hf, Option.any_some, Bool.and_eq_true] at h
      exact ⟨f, rfl, h⟩
  have hrefl : ∀ a ∈ ids, ar.DeclsAgree cs a a := by
    intro a ha
    obtain ⟨f, hf, hp, -⟩ := hfun a ha
    exact ⟨f, f, hf, hf, hp, hp, FnAgree.refl ar cs f⟩
  have hchain : ids.IsChain (ar.DeclsAgree cs) := by
    refine h.imp_of_mem_imp fun a b ha hb hab => ?_
    by_cases hne : a = b
    · subst hne
      exact hrefl a ha
    · obtain ⟨fa, hfa, hpa, hta⟩ := hfun a ha
      obtain ⟨fb, hfb, hpb, htb⟩ := hfun b hb
      exact ⟨fa, fb, hfa, hfb, hpa, hpb, (hab hne fa fb hfa hfb).fnAgree hc hta htb⟩
  intro a ha b hb
  by_cases hne : a = b
  · subst hne
    exact hrefl a ha
  · exact hchain.pairwise.forall ha hb hne

theorem SetAgree.chains (h : ar.SetAgree cs xs ys) (hxs : (ar.singlePointer? xs).isSome)
    (hys : (ar.singlePointer? ys).isSome) {x y : Nat} (hx : ar.highest cs xs = some x)
    (hy : ar.highest cs ys = some y) :
    ar.solvedChain cs x = ar.solvedChain cs y ∨ ((ar.solvedChain cs x).length ≠ (ar.solvedChain cs y).length ∧
      ∀ q ∈ ar.solvedChain cs x ++ ar.solvedChain cs y, q = .wild) := by
  obtain ⟨px, hpx⟩ := Option.isSome_iff_exists.1 hxs
  obtain ⟨py, hpy⟩ := Option.isSome_iff_exists.1 hys
  obtain ⟨x', hx', hcx⟩ := highest_of_singlePointer? cs hpx
  obtain ⟨y', hy', hcy⟩ := highest_of_singlePointer? cs hpy
  rw [hx, Option.some.injEq] at hx'
  rw [hy, Option.some.injEq] at hy'
  subst hx' hy'
  rw [hcx, hcy]
  have hag := h px py hpx hpy
  by_cases hl : px.slots.length = py.slots.length
  · exact .inl (hag.map_eq hl)
  · refine .inr ⟨by simpa using hl, fun q hq => ?_⟩
    rw [← List.map_append] at hq
    obtain ⟨v, hv, rfl⟩ := List.mem_map.1 hq
    exact hag.wild hl v hv

theorem FnLinked.returns_agree (h : ar.FnLinked cs ids) (hc : cs.Closed cs.env)
    (hret : ∀ a ∈ ids, (ar.function? a).any fun f => (ar.singlePointer? f.returns).isSome) :
    let ret := fun a => (ar.function? a).bind fun f => ar.highest cs f.returns
    (∀ a ∈ ids, ∀ b ∈ ids, ∀ x y, ret a = some x → ret b = some y → ar.solvedChain cs x = ar.solvedChain cs y) ∨
      ∀ a ∈ ids, ∀ x, ret a = some x → ∀ q ∈ ar.solvedChain cs x, q = .wild := by
  intro ret
  -- each member read as the slots of its return's pointer
  let S := fun a => (((ar.function? a).bind fun f => ar.singlePointer? f.returns).map PointerEntry.slots).getD []
  have hmem : ∀ a ∈ ids, ∃ f pr, ar.function? a = some f ∧ ar.singlePointer? f.returns = some pr ∧
      S a = pr.slots := by
    intro a ha
    have h := hret a ha
    cases hf : ar.function? a with
    | none => rw [hf] at h; cases h
    | some f =>
      rw [hf, Option.any_some] at h
      obtain ⟨pr, hpr⟩ := Option.isSome_iff_exists.1 h
      exact ⟨f, pr, rfl, hpr, by simp [S, hf, hpr]⟩
  have hread : ∀ a ∈ ids, ∀ x, ret a = some x → ar.solvedChain cs x = (S a).map cs.assignment := by
    intro a ha x hx
    obtain ⟨f, pr, hf, hpr, hS⟩ := hmem a ha
    obtain ⟨x', hx', hcx⟩ := highest_of_singlePointer? cs hpr
    simp only [ret, hf, Option.bind_some] at hx
    rw [hx, Option.some.injEq] at hx'
    rw [hS, hx', hcx]
  have hchain : ids.IsChain fun a b => cs.Agree (S a) (S b) := by
    refine h.imp_of_mem_imp fun a b ha hb hab => ?_
    obtain ⟨fa, pa, hfa, hpa, hSa⟩ := hmem a ha
    obtain ⟨fb, pb, hfb, hpb, hSb⟩ := hmem b hb
    rw [hSa, hSb]
    by_cases hne : a = b
    · subst hne
      rw [hfa, Option.some.injEq] at hfb
      subst hfb
      rw [hpa, Option.some.injEq] at hpb
      subst hpb
      exact Agree.refl cs _
    · exact (hab hne fa fb hfa hfb).returns.setAgree hc pa pb hpa hpb
  rcases Agree.chain_cases hchain with hwild | hsame
  · right
    intro a ha x hx q hq
    rw [hread a ha x hx] at hq
    obtain ⟨v, hv, rfl⟩ := List.mem_map.1 hq
    exact hwild a ha v hv
  · left
    intro a ha b hb x y hx hy
    rw [hread a ha x hx, hread b hb y hy]
    exact hsame a ha b hb

theorem FnLinked.params_agree (h : ar.FnLinked cs ids) (hc : cs.Closed cs.env)
    (hplain : ∀ a ∈ ids, (ar.function? a).any fun f => ar.plain f && f.hasPrototype) :
    ∀ a ∈ ids, ∀ b ∈ ids, ∀ fa fb, ar.function? a = some fa → ar.function? b = some fb →
      fa.params.length = fb.params.length → ∀ p ∈ fa.params.zip fb.params, ∀ x y,
        ar.highest cs p.1 = some x → ar.highest cs p.2 = some y →
          ar.solvedChain cs x = ar.solvedChain cs y ∨ ((ar.solvedChain cs x).length ≠ (ar.solvedChain cs y).length ∧
            ∀ q ∈ ar.solvedChain cs x ++ ar.solvedChain cs y, q = .wild) := by
  intro a ha b hb fa fb hfa hfb hl p hp x y hx hy
  obtain ⟨fa', fb', hfa', hfb', hpa, hpb, hag⟩ := h.declsAgree hc hplain a ha b hb
  rw [hfa, Option.some.injEq] at hfa'
  rw [hfb, Option.some.injEq] at hfb'
  subst hfa' hfb'
  obtain ⟨s, t⟩ := p
  have hst : ar.SetAgree cs s t := (List.forall₂_iff_zip.1 (hag.params hl)).2 hp
  exact hst.chains ((plain_iff.1 hpa).2 s (List.of_mem_zip hp).1) ((plain_iff.1 hpb).2 t (List.of_mem_zip hp).2)
    hx hy

end Arena

namespace Program

variable {p : Program}

theorem fnLinked_equateInSequence (loc : Option SourceLoc) :
    ∀ (ids : List Nat) (p : Program), p.Wf → p.arena.RefsBelow →
      (p.equateInSequence ids loc).arena = p.arena ∧ p.arena.FnLinked (p.equateInSequence ids loc).store ids
  | [], _, _, _ => ⟨rfl, .nil⟩
  | [a], _, _, _ => ⟨rfl, .singleton a⟩
  | a :: b :: rest, p, hw, hr => by
    rw [equateInSequence_cons_cons]
    have hstep : Preserves fun q : Program =>
        { q with store := q.arena.constrainEq q.store a b Reason.link loc } :=
      preserves_store fun q hq => Arena.growsFrom_constrainEq hq.slots (by decide) a b _ (Nat.le_refl _)
    obtain ⟨hw', -⟩ := hstep p hw
    obtain ⟨harena, hrest⟩ := fnLinked_equateInSequence loc (b :: rest) _ hw' hr
    have hgrow := (preserves_equateInSequence (b :: rest) loc _ hw').2
    refine ⟨harena, List.isChain_cons_cons.2 ⟨fun hne fa fb ha hb => ?_, hrest⟩⟩
    -- the first pair is equated at once, and the rest only adds constraints
    exact (Arena.fnEquates_constrainEq hw.slots hr (by decide) hne ha hb).mono hgrow.store.extends.entries

theorem fnLinked_foldl_equateInSequence (loc : Option SourceLoc) :
    ∀ (l : List (List Nat)) (p : Program), p.Wf → p.arena.RefsBelow →
      (l.foldl (fun q ids => q.equateInSequence ids loc) p).arena = p.arena ∧
        ∀ ids ∈ l, p.arena.FnLinked (l.foldl (fun q ids => q.equateInSequence ids loc) p).store ids
  | [], _, _, _ => ⟨rfl, fun _ h => nomatch h⟩
  | ids :: l, p, hw, hr => by
    obtain ⟨ha₁, hl₁⟩ := fnLinked_equateInSequence loc ids p hw hr
    have hw₁ := (preserves_equateInSequence ids loc p hw).1
    obtain ⟨ha, hl⟩ := fnLinked_foldl_equateInSequence loc l _ hw₁ (ha₁ ▸ hr)
    have hgrow := (Preserves.foldl (l := l) fun ids _ => preserves_equateInSequence ids loc) _ hw₁
    rw [List.foldl_cons]
    refine ⟨ha.trans ha₁, fun ids' hids' => ?_⟩
    rcases List.mem_cons.1 hids' with rfl | hids'
    · exact hl₁.mono hgrow.2.store.extends.entries
    · exact ha₁ ▸ hl ids' hids'

/-! ## The sequences linking equates -/

/-- The entry call sites see for a key, if looking it up succeeds. -/
def declarationSide? (p : Program) (d : DeclKey) : Option Nat :=
  match (declarationOf d).run p with
  | .ok c _ => some c
  | .error _ _ => none

/-- The function entries step 3 of linking equates for the name `n`, in order: the entries of the
global declarations of `n` without a body, in key order, then what call sites see for each global
definition of `n` with no declaration recorded. -/
def functionSequence (p : Program) (n : String) : List Nat :=
  (p.functions.values.filter fun f => (f.isGlobal && !f.isDefinition) && f.key.name == n).map FunctionDecl.entry ++
    (p.undeclaredDefinitions.filter fun d => (p.functions.find? d).any (·.isGlobal) && d.name == n).filterMap
      p.declarationSide?

variable {q q' p'' : Program}

theorem declarationSide?_of_run {d : DeclKey} {c : Nat} (h : (declarationOf d).run q = .ok c q')
    (hg : RoundGrows q' p'') : p''.declarationSide? d = some c := by
  rw [declarationSide?, declarationOf_stable h hg]

/-! ## Steps after the lookups -/

theorem synthesized_foldl {β : Type} {l : List β} {f : Program → β → Program}
    (hf : ∀ x q, (f q x).synthesized = q.synthesized) : ∀ q, (l.foldl f q).synthesized = q.synthesized := by
  induction l with
  | nil => exact fun _ => rfl
  | cons x xs ih => exact fun q => (ih (f q x)).trans (hf x q)

theorem synthesized_pinItype (p : Program) (id : Nat) : (p.pinItype id).2.synthesized = p.synthesized := by
  unfold pinItype
  split
  · split <;> rfl
  · rfl

theorem synthesized_forceInnerLevels (p : Program) (id : Nat) (reason : String) :
    (p.forceInnerLevels id reason).synthesized = p.synthesized := by
  unfold forceInnerLevels
  split
  · next ptr _ =>
    have h := synthesized_foldl (l := ptr.slots.drop 1)
      (f := fun (q : Program) v => { q with store := (q.store.addWild v reason none).2 }) (fun _ _ => rfl) p
    dsimp only
    split <;> exact h
  · rfl
  · rfl

theorem synthesized_applyExternPolicy (p : Program) (id : Nat) :
    (p.applyExternPolicy id).synthesized = p.synthesized := by
  unfold applyExternPolicy
  split
  · rfl
  · dsimp only
    refine (synthesized_foldl (fun x q => ?_) _).trans (synthesized_foldl (fun r q => ?_) p)
    · show ((q.pinItype x).2.forceInnerLevels x Reason.externParam).synthesized = q.synthesized
      rw [synthesized_forceInnerLevels, synthesized_pinItype]
    · show (if (q.pinItype r).1 then (q.pinItype r).2.forceInnerLevels r Reason.externReturn
        else (q.pinItype r).2.forceWild r Reason.externReturn none).synthesized = q.synthesized
      split
      · rw [synthesized_forceInnerLevels, synthesized_pinItype]
      · exact synthesized_pinItype q r

theorem roundGrows_equateInSequence {q : Program} (hw : q.Wf) (ids : List Nat) (loc : Option SourceLoc) :
    RoundGrows q (q.equateInSequence ids loc) :=
  ⟨by rw [arena_equateInSequence]; exact Arena.Appends.refl _, (preserves_equateInSequence ids loc q hw).2.store,
    sameTables_equateInSequence ids loc q, fun k id h => by
      rw [equateInSequence, synthesized_foldl]
      · exact h
      · rintro ⟨a, b⟩ q
        rfl⟩

theorem roundGrows_applyExternPolicy {q : Program} (hw : q.Wf) (id : Nat) :
    RoundGrows q (q.applyExternPolicy id) :=
  ⟨by rw [arena_applyExternPolicy]; exact Arena.Appends.refl _, (preserves_applyExternPolicy id q hw).2.store,
    sameTables_applyExternPolicy q id, fun k id h => by
      rw [synthesized_applyExternPolicy]
      exact h⟩

theorem roundGrows_foldl {β : Type} {l : List β} {f : Program → β → Program}
    (hf : ∀ x ∈ l, Preserves fun q => f q x) (hg : ∀ x ∈ l, ∀ q : Program, q.Wf → RoundGrows q (f q x)) :
    ∀ q : Program, q.Wf → RoundGrows q (l.foldl f q) := by
  induction l with
  | nil => exact fun q _ => RoundGrows.refl q
  | cons x xs ih =>
    intro q hw
    have hx : x ∈ x :: xs := List.mem_cons_self
    have hrest := ih (fun y hy => hf y (List.mem_cons_of_mem x hy)) (fun y hy => hg y (List.mem_cons_of_mem x hy))
    exact (hg x hx q hw).trans (hrest _ (hf x hx q hw).1)

theorem SameTables.undeclaredDefinitions (h : SameTables q q') :
    q'.undeclaredDefinitions = q.undeclaredDefinitions := by
  unfold Program.undeclaredDefinitions
  rw [h.functions]

theorem forIn_declarationSides {g : DeclKey → SortedMap String (List Nat) → ProgramM (ForInStep (SortedMap String (List Nat)))}
    (hg : ∀ d B q r q', (g d B).run q = .ok r q' →
      if (q.functions.find? d).any (·.isGlobal) then
        ∃ c, (declarationOf d).run q = .ok c q' ∧ r = .yield (B.alter d.name fun o => o.getD [] ++ [c])
      else q' = q ∧ r = .yield B) :
    ∀ (l : List DeclKey) (B B' : SortedMap String (List Nat)) (q q' : Program), q.RefsOk →
      (forIn l B g).run q = .ok B' q' → RoundGrows q q' ∧ q'.RefsOk ∧ ∀ p'', RoundGrows q' p'' →
        (∀ d ∈ l, (q.functions.find? d).any (·.isGlobal) →
          ∃ c, p''.declarationSide? d = some c ∧ c < p''.arena.size) ∧
        B' = l.foldl (fun B d => if (q.functions.find? d).any (·.isGlobal) then
          B.alter d.name (fun o => o.getD [] ++ [(p''.declarationSide? d).getD 0]) else B) B := by
  intro l
  induction l with
  | nil =>
    intro B B' q q' hq h
    cases h
    exact ⟨RoundGrows.refl _, hq, fun _ _ => ⟨fun _ h => (nomatch h), rfl⟩⟩
  | cons d l ih =>
    intro B B' q q' hq h
    rw [List.forIn_cons] at h
    obtain ⟨r, q₁, h₁, h₂⟩ := run_bind_ok h
    have hstep := hg d B q r q₁ h₁
    split at hstep
    · next hd =>
      obtain ⟨c, hc, rfl⟩ := hstep
      have hq₁ := ((keepsRefs_declarationOf (n := 0) d).run_ok hq (Nat.zero_le _) hc).1
      have hg₁ := roundGrows_declarationOf hq.wf hc
      obtain ⟨hg', hq', hB'⟩ := ih _ B' q₁ q' hq₁ h₂
      refine ⟨hg₁.trans hg', hq', fun p'' hp'' => ?_⟩
      have hside := declarationSide?_of_run hc (hg'.trans hp'')
      have hlt : c < q₁.arena.size := yieldsBelow_declarationOf d q hq c q₁ hc c (List.mem_singleton_self c)
      obtain ⟨hsides, hfold⟩ := hB' p'' hp''
      rw [hg₁.tables.functions] at hsides hfold
      refine ⟨?_, ?_⟩
      · intro d' hd' hglob
        rcases List.mem_cons.1 hd' with rfl | hd'
        · exact ⟨c, hside, Nat.lt_of_lt_of_le hlt (hg'.trans hp'').arena.size_le⟩
        · exact hsides d' hd' hglob
      · rw [hfold, List.foldl_cons, if_pos hd, hside, Option.getD_some]
    · next hd =>
      obtain ⟨hq₁, rfl⟩ := hstep
      rw [hq₁] at h₂
      obtain ⟨hg', hq', hB'⟩ := ih _ B' q q' hq h₂
      refine ⟨hg', hq', fun p'' hp'' => ?_⟩
      obtain ⟨hsides, hfold⟩ := hB' p'' hp''
      refine ⟨?_, ?_⟩
      · intro d' hd' hglob
        rcases List.mem_cons.1 hd' with rfl | hd'
        · exact absurd hglob hd
        · exact hsides d' hd' hglob
      · rw [hfold, List.foldl_cons, if_neg hd]

theorem forIn_equates {g : List Nat → Nat → ProgramM (ForInStep Nat)}
    (hg : ∀ ids k q r q', (g ids k).run q = .ok r q' → q' = q.equateInSequence ids none ∧ ∃ k', r = .yield k') :
    ∀ (l : List (List Nat)) (k k' : Nat) (q q' : Program), (forIn l k g).run q = .ok k' q' →
      q' = l.foldl (fun q ids => q.equateInSequence ids none) q := by
  intro l
  induction l with
  | nil =>
    intro k k' q q' h
    cases h
    rfl
  | cons ids l ih =>
    intro k k' q q' h
    rw [List.forIn_cons] at h
    obtain ⟨r, q₁, h₁, h₂⟩ := run_bind_ok h
    obtain ⟨rfl, k'', rfl⟩ := hg ids k q r q₁ h₁
    exact ih _ k' _ q' h₂

theorem forIn_externs {g : String → PUnit → ProgramM (ForInStep PUnit)}
    (hg : ∀ x q r q', (g x PUnit.unit).run q = .ok r q' →
      r = .yield PUnit.unit ∧ ∃ ids : List Nat, q' = ids.foldl applyExternPolicy q) :
    ∀ (l : List String) (q q' : Program), q.Wf → (forIn l PUnit.unit g).run q = .ok PUnit.unit q' →
      RoundGrows q q' ∧ q'.arena = q.arena := by
  intro l
  induction l with
  | nil =>
    intro q q' _ h
    cases h
    exact ⟨RoundGrows.refl _, rfl⟩
  | cons x l ih =>
    intro q q' hw h
    rw [List.forIn_cons] at h
    obtain ⟨r, q₁, h₁, h₂⟩ := run_bind_ok h
    obtain ⟨rfl, ids, rfl⟩ := hg x q r q₁ h₁
    have hp := Preserves.foldl (l := ids) fun id _ => preserves_applyExternPolicy id
    obtain ⟨hg', ha'⟩ := ih _ q' (hp q hw).1 h₂
    refine ⟨(roundGrows_foldl (fun id _ => preserves_applyExternPolicy id)
      (fun id _ q hw => roundGrows_applyExternPolicy hw id) q hw).trans hg', ?_⟩
    rw [ha', arena_foldl fun x q => arena_applyExternPolicy q x]

end Program

namespace SortedMap

theorem find?_foldl_alter_append {β : Type} (key : β → String) (val : β → Nat) (P : β → Bool)
    (n : String) : ∀ (l : List β) (m : SortedMap String (List Nat)), m.Ascending →
      (l.foldl (fun m x => if P x then m.alter (key x) (fun o => o.getD [] ++ [val x]) else m) m).Ascending ∧
      ((l.foldl (fun m x => if P x then m.alter (key x) (fun o => o.getD [] ++ [val x]) else m) m).find? n).getD [] =
        (m.find? n).getD [] ++ (l.filter fun x => P x && key x == n).map val
  | [], m, h => ⟨h, by simp⟩
  | x :: l, m, h => by
    have hstep : (if P x then m.alter (key x) (fun o => o.getD [] ++ [val x]) else m).Ascending ∧
        ((if P x then m.alter (key x) (fun o => o.getD [] ++ [val x]) else m).find? n).getD [] =
          (m.find? n).getD [] ++ (if P x && key x == n then [val x] else []) := by
      by_cases hp : P x = true
      · refine ⟨by simpa [hp] using h.alter (key x) fun o => o.getD [] ++ [val x], ?_⟩
        by_cases hk : key x = n
        · subst hk
          simp [hp, h.find?_alter_self]
        · simp [hp, hk, find?_alter_of_ne (Ne.symm hk)]
      · simp [hp, h]
    obtain ⟨h₁, hf₁⟩ := find?_foldl_alter_append key val P n l _ hstep.1
    refine ⟨h₁, ?_⟩
    rw [List.foldl_cons, hf₁, hstep.2, List.filter_cons]
    split <;> simp_all

end SortedMap

namespace Program

theorem find?_byName {p q : Program} {B' : SortedMap String (List Nat)} (ht : SameTables p q)
    (hfold : B' = p.undeclaredDefinitions.foldl (fun B d => if (p.functions.find? d).any (·.isGlobal) then
        B.alter d.name (fun o => o.getD [] ++ [(q.declarationSide? d).getD 0]) else B)
      (p.functions.values.foldl (fun m f => if f.isGlobal && !f.isDefinition then
        m.alter f.key.name fun l => l.getD [] ++ [f.entry] else m) SortedMap.empty))
    (hsides : ∀ d ∈ p.undeclaredDefinitions, (p.functions.find? d).any (·.isGlobal) →
      ∃ c, q.declarationSide? d = some c) (n : String) :
    (B'.find? n).getD [] = q.functionSequence n := by
  obtain ⟨hasc₀, hB₀⟩ := SortedMap.find?_foldl_alter_append (fun f : FunctionDecl => f.key.name)
    FunctionDecl.entry (fun f => f.isGlobal && !f.isDefinition) n p.functions.values _ SortedMap.ascending_empty
  have hnil : ((SortedMap.empty : SortedMap String (List Nat)).find? n).getD [] = [] := rfl
  rw [hfold, (SortedMap.find?_foldl_alter_append DeclKey.name (fun d => (q.declarationSide? d).getD 0)
    (fun d => (p.functions.find? d).any (·.isGlobal)) n p.undeclaredDefinitions _ hasc₀).2, hB₀, hnil,
    List.nil_append]
  unfold functionSequence
  rw [ht.functions, ht.undeclaredDefinitions]
  -- every looked-up definition has a declaration side, so reading it with a default loses nothing
  refine congrArg₂ (· ++ ·) rfl ((List.filterMap_congr fun d hd => ?_).trans (congrFun List.filterMap_eq_map' _)).symm
  obtain ⟨hd, hP⟩ := List.mem_filter.1 hd
  obtain ⟨c, hc⟩ := hsides d hd (Bool.and_eq_true_iff.1 hP).1
  rw [hc]
  rfl

theorem fnLinked_linkFunctions {p q : Program} {r : Nat × Nat} (hq : p.RefsOk)
    (hsep : p.options.separateMultipleFuncDecls = false) (h : linkFunctions.run p = .ok r q) (n : String) :
    q.arena.FnLinked q.store (q.functionSequence n) ∧ ∀ id ∈ q.functionSequence n, id < q.arena.size := by
  have hqR := ((keepsRefs_linkFunctions (n := 0)).run_ok hq (Nat.zero_le _) h).1
  unfold linkFunctions at h
  rw [run_bind, run_get] at h
  dsimp only at h
  rw [hsep, Bool.not_false, if_pos rfl, run_bind, run_get] at h
  dsimp only at h
  obtain ⟨B', q₁, h₁, h⟩ := run_bind_ok h
  have hsides := forIn_declarationSides ?sides _ _ B' p q₁ hq h₁
  obtain ⟨hg₁, hq₁, hB'⟩ := hsides
  obtain ⟨k, q₂, h₂, h⟩ := run_bind_ok h
  have hq₂ := forIn_equates ?equates _ _ k q₁ q₂ h₂
  rw [run_bind, run_get] at h
  dsimp only at h
  obtain ⟨u, q₃, h₃, h⟩ := run_bind_ok h
  rw [run_pure] at h
  cases h
  cases u
  subst hq₂
  have hw₁ := hq₁.wf
  obtain ⟨ha₂, hl₂⟩ := fnLinked_foldl_equateInSequence none B'.values q₁ hw₁ hq₁.refs
  have hg₂ := roundGrows_foldl (l := B'.values) (fun ids _ => preserves_equateInSequence ids none)
    (fun ids _ q hw => roundGrows_equateInSequence hw ids none) q₁ hw₁
  have hw₂ := ((Preserves.foldl (l := B'.values) fun ids _ => preserves_equateInSequence ids none) q₁ hw₁).1
  have hexterns := forIn_externs ?externs _ _ q hw₂ h₃
  obtain ⟨hg₃, ha₃⟩ := hexterns
  obtain ⟨hsides, hfold⟩ := hB' q (hg₂.trans hg₃)
  have ht : SameTables p q := (hg₁.trans (hg₂.trans hg₃)).tables
  -- what the two folds leave under `n` is the sequence of `n`
  have hseq := find?_byName ht hfold (fun d hd hg => (hsides d hd hg).imp fun _ h => h.1) n
  refine ⟨?_, fun id hid => ?_⟩
  · cases hfind : B'.find? n with
    | none =>
      rw [← hseq, hfind]
      exact List.IsChain.nil
    | some L =>
      obtain ⟨k', hk', -⟩ := SortedMap.mem_of_find? hfind
      rw [← hseq, hfind, Option.getD_some, ha₃, ha₂]
      exact (hl₂ L (SortedMap.mem_values.2 ⟨k', hk'⟩)).mono hg₃.store.extends.entries
  · -- declarations are recorded entries, and declaration sides were looked up into the arena
    rcases List.mem_append.1 hid with hid | hid
    · obtain ⟨f, hf, rfl⟩ := List.mem_map.1 hid
      obtain ⟨k', hk'⟩ := SortedMap.mem_values.1 (List.mem_filter.1 hf).1
      exact (hqR.names.functions (k', f) hk').lt_size
    · obtain ⟨d, hd, hc⟩ := List.mem_filterMap.1 hid
      obtain ⟨hd, hP⟩ := List.mem_filter.1 hd
      rw [ht.functions] at hP
      obtain ⟨c, hc', hlt⟩ := hsides d (ht.undeclaredDefinitions ▸ hd) (Bool.and_eq_true_iff.1 hP).1
      rw [hc', Option.some.injEq] at hc
      exact hc ▸ hlt
  case sides =>
    intro d B q r q' hb
    rw [run_bind, run_get] at hb
    dsimp only at hb
    split at hb
    · next hd =>
      rw [if_pos hd]
      obtain ⟨c, q'', hc, hp⟩ := run_bind_ok hb
      rw [run_pure] at hp
      cases hp
      exact ⟨c, hc, rfl⟩
    · next hd =>
      rw [if_neg hd]
      rw [run_pure] at hb
      cases hb
      exact ⟨rfl, rfl⟩
  case equates =>
    intro ids k q r q' hb
    rw [run_bind, run_modify] at hb
    dsimp only at hb
    rw [run_pure] at hb
    cases hb
    exact ⟨rfl, _, rfl⟩
  case externs =>
    intro x q r q' hb
    rw [run_bind, run_get] at hb
    dsimp only at hb
    rw [run_bind, run_modify] at hb
    dsimp only at hb
    rw [run_pure] at hb
    cases hb
    exact ⟨rfl, _, rfl⟩

theorem fnLinked_link {p q : Program} {st : LinkStats} (hq : p.RefsOk) (h : link.run p = .ok st q)
    (hsep : q.options.separateMultipleFuncDecls = false) (n : String) :
    q.arena.FnLinked q.store (q.functionSequence n) ∧ ∀ id ∈ q.functionSequence n, id < q.arena.size := by
  unfold link at h
  obtain ⟨⟨g₁, g₂⟩, q₁, h₁, h⟩ := run_bind_ok h
  dsimp only at h
  obtain ⟨r, q₂, h₂, h⟩ := run_bind_ok h
  rw [run_pure] at h
  cases h
  have hq₁ := ((keepsRefs_linkGroups (n := 0)).run_ok hq (Nat.zero_le _) h₁).1
  have ht := keepsTables_linkFunctions q₁
  rw [h₂, stateOf_ok] at ht
  exact fnLinked_linkFunctions hq₁ (ht.options ▸ hsep) h₂ n

end Program

namespace Session

open Program

variable {s₀ s₁ s₂ : Session} {o : Options} {facts : List Fact} {st : LinkStats} {sum : SolveSummary}

section Table

variable [UnifyTable]

theorem build_fnLinked (hr : Reachable (fun _ => True) o s₀) (hb : (build facts).run s₀ = .ok st s₁)
    (hsep : s₁.program.options.separateMultipleFuncDecls = false) (n : String) :
    s₁.program.arena.FnLinked s₁.program.store (s₁.program.functionSequence n) ∧
      ∀ id ∈ s₁.program.functionSequence n, id < s₁.program.arena.size := by
  have hq := hr.refsOk
  unfold build at hb
  rw [run_bind, run_onProgram] at hb
  cases hA : (addFacts facts).run s₀.program with
  | error e p => rw [hA] at hb; cases hb
  | ok u p =>
    have hp := ((keepsRefs_addFacts (n := 0) facts).run_ok hq (Nat.zero_le _) hA).1
    rw [hA] at hb
    dsimp only at hb
    rw [run_bind, run_onProgram] at hb
    cases hL : link.run p with
    | error e q => rw [hL] at hb; cases hb
    | ok r q =>
      rw [hL] at hb
      cases hb
      exact fnLinked_link hp hL hsep n

/-- After a build and a solve, the prototyped function entries linked for one name agree on their
highest return and, position by position, on their highest parameters, or are `wild` throughout. -/
theorem function_declarations_agree (hr : Reachable (fun _ => True) o s₀)
    (hb : (build facts).run s₀ = .ok st s₁) (hs : solve.run s₁ = .ok sum s₂)
    (hsep : s₁.program.options.separateMultipleFuncDecls = false) (n : String)
    (hplain : ∀ a ∈ s₁.program.functionSequence n,
      (s₂.program.arena.function? a).any fun f => s₂.program.arena.plain f && f.hasPrototype) :
    let ar := s₂.program.arena
    let cs := s₂.program.store
    let L := s₁.program.functionSequence n
    let ret := fun a => (ar.function? a).bind fun f => ar.highest cs f.returns
    ((∀ a ∈ L, ∀ b ∈ L, ∀ x y, ret a = some x → ret b = some y → ar.solvedChain cs x = ar.solvedChain cs y) ∨
        ∀ a ∈ L, ∀ x, ret a = some x → ∀ q ∈ ar.solvedChain cs x, q = .wild) ∧
      ∀ a ∈ L, ∀ b ∈ L, ∀ fa fb, ar.function? a = some fa → ar.function? b = some fb →
        fa.params.length = fb.params.length → ∀ p ∈ fa.params.zip fb.params, ∀ x y,
          ar.highest cs p.1 = some x → ar.highest cs p.2 = some y →
            ar.solvedChain cs x = ar.solvedChain cs y ∨
              ((ar.solvedChain cs x).length ≠ (ar.solvedChain cs y).length ∧
                ∀ q ∈ ar.solvedChain cs x ++ ar.solvedChain cs y, q = .wild) := by
  intro ar cs L ret
  -- the built session is reachable, so its invariants hold for the solve
  have hstep : Step (fun _ => True) s₀ (stateOf ((build facts).run s₀)) :=
    Step.build s₀ facts fun _ _ _ => trivial
  rw [hb, stateOf_ok] at hstep
  have hr₁ : Reachable (fun _ => True) o s₁ := hr.tail hstep
  have hw₁ := hr₁.wf
  have hc : cs.Closed cs.env := by
    rcases solve_run hw₁ with ⟨-, hr'⟩ | ⟨-, r, p, hr', -, hc, -⟩
    · rw [hr'] at hs
      cases hs
    · rw [hr'] at hs
      cases hs
      exact hc
  -- what the build linked stays linked through the solve
  obtain ⟨hl₁, hlt⟩ := build_fnLinked hr hb hsep n
  have hg := solve_growsOnly hw₁ hs
  have hl : ar.FnLinked cs L := (hl₁.extend hg.arena hr₁.refsOk.refs hlt).mono hg.entries
  have hret : ∀ a ∈ L, (ar.function? a).any fun f => (ar.singlePointer? f.returns).isSome := by
    intro a ha
    have h := hplain a ha
    cases hf : ar.function? a with
    | none => rw [hf] at h; cases h
    | some f =>
      rw [hf, Option.any_some, Bool.and_eq_true, Arena.plain_iff] at h
      exact h.1.1
  exact ⟨hl.returns_agree hc hret, hl.params_agree hc hplain⟩

end Table

/-- Two prototyped declarations of `f` in two headers, one called with an array: both parameters
are solved to `arr`. -/
theorem function_declarations_agree_of_prototypes :
    let xParam := fun file : String => (⟨"x", ⟨"int", [.pointer], none⟩, some ⟨file, 1, 10, "x"⟩, none⟩ : ParamShape)
    let declare := fun file : String => Fact.declare
      { key := ⟨file, 1, 1, "f"⟩, kind := .function, isGlobal := true,
        ty := ⟨"", [], some ⟨⟨"int", [], none⟩, [xParam file], true, false⟩⟩ }
    let q : DeclKey := ⟨"m.c", 1, 1, "q"⟩
    let facts : List Fact :=
      [declare "a.h", declare "c.h", .declare { key := q, kind := .variable, ty := ⟨"int", [.pointer], none⟩ },
       .arithmetic (.decl q false) none, .call (.decl ⟨"c.h", 1, 1, "f"⟩ false) [.decl q false] none none]
    let s₁ := stateOf ((build facts).run (create {}))
    let s₂ := stateOf (solve.run s₁)
    let ar := s₂.program.arena
    let cs := s₂.program.store
    let L := s₁.program.functionSequence "f"
    let ret := fun a => (ar.function? a).bind fun f => ar.highest cs f.returns
    (∃ st, (build facts).run (create {}) = .ok st s₁) ∧ (∃ sum, solve.run s₁ = .ok sum s₂) ∧
      s₁.program.options.separateMultipleFuncDecls = false ∧
      (∀ a ∈ L, (ar.function? a).any fun f => ar.plain f && f.hasPrototype) ∧ L = [2, 5] ∧
      s₂.solution ⟨"a.h", 1, 10, "x"⟩ = [[.arr]] ∧
      ((∀ a ∈ L, ∀ b ∈ L, ∀ x y, ret a = some x → ret b = some y → ar.solvedChain cs x = ar.solvedChain cs y) ∨
          ∀ a ∈ L, ∀ x, ret a = some x → ∀ q ∈ ar.solvedChain cs x, q = .wild) ∧
        ∀ a ∈ L, ∀ b ∈ L, ∀ fa fb, ar.function? a = some fa → ar.function? b = some fb →
          fa.params.length = fb.params.length → ∀ p ∈ fa.params.zip fb.params, ∀ x y,
            ar.highest cs p.1 = some x → ar.highest cs p.2 = some y →
              ar.solvedChain cs x = ar.solvedChain cs y ∨
                ((ar.solvedChain cs x).length ≠ (ar.solvedChain cs y).length ∧
                  ∀ q ∈ ar.solvedChain cs x ++ ar.solvedChain cs y, q = .wild) := by
  intro xParam declare q facts s₁ s₂ ar cs L ret
  -- the build and the solve are read off the kernel's evaluation of their runs
  obtain ⟨st, hb⟩ : ∃ st, (build facts).run (create {}) = .ok st s₁ := by
    have hok : (match (build facts).run (create {}) with | .ok _ _ => true | .error _ _ => false) = true := by
      decide +kernel
    cases hr : (build facts).run (create {}) with
    | ok st s => exact ⟨st, by simp only [s₁, hr, stateOf_ok]⟩
    | error e s => rw [hr] at hok; cases hok
  have hstep : Step (fun _ => True) (create {}) (stateOf ((build facts).run (create {}))) :=
    Step.build (create {}) facts fun _ _ _ => trivial
  rw [hb, stateOf_ok] at hstep
  have hr₁ : Reachable (fun _ => True) {} s₁ := Relation.ReflTransGen.single hstep
  obtain ⟨sum, hs⟩ : ∃ sum, solve.run s₁ = .ok sum s₂ := by
    rcases solve_run hr₁.wf with ⟨hnb, -⟩ | ⟨-, r, p, hr, -⟩
    · exact absurd hnb (by decide +kernel)
    · refine ⟨r, ?_⟩
      show solve.run s₁ = .ok r (stateOf (solve.run s₁))
      rw [hr, stateOf_ok]
  have hsep : s₁.program.options.separateMultipleFuncDecls = false := by decide +kernel
  have hplain : ∀ a ∈ L, (ar.function? a).any fun f => ar.plain f && f.hasPrototype := by decide +kernel
  exact ⟨⟨st, hb⟩, ⟨sum, hs⟩, hsep, hplain, by decide +kernel, by decide +kernel,
    function_declarations_agree Relation.ReflTransGen.refl hb hs hsep "f" hplain⟩

/-- An unprototyped declaration between two prototyped ones is linked with both, yet equates no
parameters, so the outer two solve their parameters apart. -/
theorem unprototyped_declaration_splits_parameters :
    let xParam := fun file : String => (⟨"x", ⟨"int", [.pointer], none⟩, some ⟨file, 1, 10, "x"⟩, none⟩ : ParamShape)
    let declare := fun (file : String) (params : List ParamShape) (proto : Bool) => Fact.declare
      { key := ⟨file, 1, 1, "f"⟩, kind := .function, isGlobal := true,
        ty := ⟨"", [], some ⟨⟨"int", [], none⟩, params, proto, false⟩⟩ }
    let q : DeclKey := ⟨"m.c", 1, 1, "q"⟩
    let facts : List Fact :=
      [declare "a.h" [xParam "a.h"] true, declare "b.h" [] false, declare "c.h" [xParam "c.h"] true,
       .declare { key := q, kind := .variable, ty := ⟨"int", [.pointer], none⟩ },
       .arithmetic (.decl q false) none, .call (.decl ⟨"c.h", 1, 1, "f"⟩ false) [.decl q false] none none]
    let s₁ := stateOf ((build facts).run (create {}))
    let s₂ := stateOf (solve.run s₁)
    let ar := s₂.program.arena
    let cs := s₂.program.store
    let firstParam := fun a => ((ar.function? a).bind fun f => f.params.head?.bind (ar.highest cs)).map
      (ar.solvedChain cs)
    s₁.program.functionSequence "f" = [2, 4, 7] ∧
      [2, 4, 7].map (fun a => (ar.function? a).map (·.params.length)) = [some 1, some 0, some 1] ∧
      [2, 4, 7].map firstParam = [some [.ptr], none, some [.arr]] ∧
      s₂.solution ⟨"a.h", 1, 10, "x"⟩ = [[.ptr]] ∧ s₂.solution ⟨"c.h", 1, 10, "x"⟩ = [[.arr]] := by
  decide +kernel

/-- Parameters that cannot be lined up are forced to `wild`, not equated: `int *x` against
`int **x` differ in depth, and `int *y` against a function `y` in kind, so the linked parameters
solve to chains of different lengths. -/
theorem mismatched_parameter_shapes_solve_apart :
    let param := fun (file : String) (col : Nat) (name : String) (ty : TypeShape) =>
      (⟨name, ty, some ⟨file, 1, col, name⟩, none⟩ : ParamShape)
    let declare := fun (file : String) (params : List ParamShape) => Fact.declare
      { key := ⟨file, 1, 1, "f"⟩, kind := .function, isGlobal := true,
        ty := ⟨"", [], some ⟨⟨"int", [], none⟩, params, true, false⟩⟩ }
    let facts : List Fact :=
      [declare "a.h" [param "a.h" 10 "x" ⟨"int", [.pointer], none⟩, param "a.h" 20 "y" ⟨"int", [.pointer], none⟩],
       declare "b.h" [param "b.h" 10 "x" ⟨"int", [.pointer, .pointer], none⟩,
         param "b.h" 20 "y" ⟨"", [], some ⟨⟨"int", [], none⟩, [], true, false⟩⟩]]
    let s := stateOf (solve.run (stateOf ((build facts).run (create { safeExterns := ["f"] }))))
    s.solution ⟨"a.h", 1, 10, "x"⟩ = [[.wild]] ∧ s.solution ⟨"b.h", 1, 10, "x"⟩ = [[.wild, .wild]] ∧
      s.solution ⟨"a.h", 1, 20, "y"⟩ = [[.wild]] ∧ s.solution ⟨"b.h", 1, 20, "y"⟩ = [[]] := by
  decide +kernel

end Session

end CheckedPointers
