import CheckedPointers.Proofs.FunctionLinking
import CheckedPointers.Proofs.EntryShapes
/-!
# Equated entries of one shape are wild together

An entry is `wild` throughout in a store when every slot it reaches is solved to `wild`
(`Arena.AllWild`); with every reference pointing back, that is its own slots and everything it
embeds (`Arena.RefsBelow.allWild_iff`). Forcing an entry asks for every slot it reaches to be
`wild` (`Arena.WildForced`), which a closed store grants.

Equating two entries built from one type shape lines them up completely: slot against slot,
embedded function against embedded function, return against return and parameter against
parameter. So in every closed store that asks at least as much, one is `wild` throughout exactly
when the other is (`Arena.wildTied_constrainEq`). Along a sequence equated neighbour by neighbour,
one member `wild` throughout makes all of them so (`Arena.allWild_iff_of_isChain`).
-/

namespace CheckedPointers

open ConstraintStore

namespace ConstraintStore

variable {cs : ConstraintStore} {xs ys : List Nat}

theorem Agree.wild_iff (h : cs.Agree xs ys) :
    (∀ v ∈ xs, cs.assignment v = .wild) ↔ ∀ v ∈ ys, cs.assignment v = .wild := by
  rcases h with h | h
  · exact ⟨fun hx => wild_of_map_eq h.symm hx, fun hy => wild_of_map_eq h hy⟩
  · exact ⟨fun _ v hv => h v (List.mem_append_right _ hv), fun _ v hv => h v (List.mem_append_left _ hv)⟩

theorem foldl_appends {β : Type} {P : β → ConstraintStore → Prop}
    (hP : ∀ x cs cs', P x cs → cs.entries <+: cs'.entries → P x cs')
    {f : ConstraintStore → β → ConstraintStore} (hf : ∀ cs x, cs.entries <+: (f cs x).entries ∧ P x (f cs x)) :
    ∀ (l : List β) (cs : ConstraintStore), cs.entries <+: (l.foldl f cs).entries ∧ ∀ x ∈ l, P x (l.foldl f cs)
  | [], cs => ⟨List.prefix_refl _, fun _ h => nomatch h⟩
  | x :: l, cs => by
    obtain ⟨hp, hx⟩ := hf cs x
    obtain ⟨hp', hl⟩ := foldl_appends hP hf l (f cs x)
    refine ⟨hp.trans hp', fun y hy => ?_⟩
    rcases List.mem_cons.1 hy with rfl | hy
    · exact hP _ _ _ hx hp'
    · exact hl y hy

end ConstraintStore

namespace Arena

variable {ar ar' : Arena} {cs cs' : ConstraintStore} {id a b n : Nat} {reason : String}
  {loc : Option SourceLoc}

/-! ## Slots reachable from an entry -/

theorem mem_varsOf_iff_of_back (h : ∀ c ∈ ar.children id, c < id) {v : Nat} :
    v ∈ (ar.varsOf id).toList ↔
      (∃ pe, ar.pointer? id = some pe ∧ v ∈ pe.slots) ∨ ∃ c ∈ ar.children id, v ∈ (ar.varsOf c).toList := by
  refine ⟨fun hv => ?_, ?_⟩
  · rw [varsOf_eq_of_back h] at hv
    -- the walk adds to the own slots what each embedded entry reaches
    have hwalk : ∀ (l : List Nat) (acc : SortedSet Nat),
        v ∈ (l.foldl (fun acc c => acc.union (ar.varsOf c)) acc).toList →
          v ∈ acc.toList ∨ ∃ c ∈ l, v ∈ (ar.varsOf c).toList := by
      intro l
      induction l with
      | nil => exact fun _ h => .inl h
      | cons c l ih =>
        intro acc hmem
        rcases ih _ hmem with hmem | ⟨c', hc', hmem⟩
        · rcases SortedSet.mem_union hmem with hmem | hmem
          · exact .inl hmem
          · exact .inr ⟨c, List.mem_cons_self, hmem⟩
        · exact .inr ⟨c', List.mem_cons_of_mem c hc', hmem⟩
    rcases hwalk _ _ hv with hown | hkid
    · left
      cases hget : ar.get? id with
      | none => simp [hget, SortedSet.toList_empty] at hown
      | some e =>
        cases e with
        | pointer pe =>
          rw [hget] at hown
          exact ⟨pe, pointer?_eq_some.2 hget, SortedSet.mem_ofList hown⟩
        | function fe => simp [hget, SortedSet.toList_empty] at hown
    · exact .inr hkid
  · rintro (⟨pe, hp, hv⟩ | ⟨c, hc, hv⟩)
    · exact mem_varsOf_of_pointer hp hv
    · exact mem_varsOf_of_child_of_back h hc hv

theorem RefsBelow.mem_varsOf_iff (h : ar.RefsBelow) {v : Nat} :
    v ∈ (ar.varsOf id).toList ↔
      (∃ pe, ar.pointer? id = some pe ∧ v ∈ pe.slots) ∨ ∃ c ∈ ar.children id, v ∈ (ar.varsOf c).toList :=
  mem_varsOf_iff_of_back (h.back id)

theorem foldl_attach_dite {β : Type} {l : List Nat} (f : β → Nat → β) (init : β) :
    l.attach.foldl (fun acc c => if _h : c.1 < id then f acc c.1 else acc) init =
      l.foldl (fun acc c => if c < id then f acc c else acc) init :=
  (List.foldl_ext _ _ init fun _ _ _ => dite_eq_ite).trans
    (List.foldl_attach (f := fun acc c => if c < id then f acc c else acc))

theorem Extends.varsOf_eq (he : ar.Extends ar') : ∀ id, id < ar.size → ar'.varsOf id = ar.varsOf id := by
  intro id
  induction id using Nat.strongRecOn with
  | ind id ih =>
    intro hlt
    obtain ⟨e, hget⟩ : ∃ e, ar.get? id = some e := ⟨_, Array.getElem?_eq_getElem hlt⟩
    obtain ⟨e', hget', hshape⟩ := he.shape id e hget
    have hkids : ar'.children id = ar.children id :=
      (children_eq_of_shape (by rw [hget, hget']; simp [hshape])).symm
    rw [varsOf, foldl_attach_dite (fun (acc : SortedSet Nat) c => acc.union (ar'.varsOf c)), varsOf,
      foldl_attach_dite (fun (acc : SortedSet Nat) c => acc.union (ar.varsOf c)), hkids]
    -- the walk only visits entries numbered below `id`, which were there already
    have hwalk : ∀ acc : SortedSet Nat,
        (ar.children id).foldl (fun acc c => if c < id then acc.union (ar'.varsOf c) else acc) acc =
          (ar.children id).foldl (fun acc c => if c < id then acc.union (ar.varsOf c) else acc) acc :=
      fun acc => List.foldl_ext _ _ _ fun acc c _ => by
        by_cases hc : c < id
        · rw [if_pos hc, if_pos hc, ih c hc (Nat.lt_trans hc hlt)]
        · rw [if_neg hc, if_neg hc]
    rw [hwalk]
    -- the own slots are kept with the shape
    congr 1
    rw [hget, hget']
    cases e with
    | pointer pe =>
      obtain ⟨pe', rfl, hslots, -⟩ := Entry.shape_eq_pointer hshape
      simp [hslots]
    | function fe => rw [Entry.shape_eq_function hshape]

/-! ## Entries wild throughout -/

/-- Every slot the entry reaches is solved to `wild`. -/
def AllWild (ar : Arena) (cs : ConstraintStore) (id : Nat) : Prop :=
  ∀ v ∈ (ar.varsOf id).toList, cs.assignment v = .wild

/-- Every slot the entry reaches is asked to be `wild`. -/
def WildForced (ar : Arena) (cs : ConstraintStore) (id : Nat) : Prop :=
  ∀ v ∈ (ar.varsOf id).toList, cs.Asks (.geq v .wild)

theorem RefsBelow.allWild_iff (h : ar.RefsBelow) :
    ar.AllWild cs id ↔ (∀ pe, ar.pointer? id = some pe → ∀ v ∈ pe.slots, cs.assignment v = .wild) ∧
      ∀ c ∈ ar.children id, ar.AllWild cs c := by
  refine ⟨fun hw => ⟨fun pe hp v hv => hw v (h.mem_varsOf_iff.2 (.inl ⟨pe, hp, hv⟩)),
    fun c hc v hv => hw v (h.mem_varsOf_iff.2 (.inr ⟨c, hc, hv⟩))⟩, ?_⟩
  rintro ⟨hown, hkids⟩ v hv
  rcases h.mem_varsOf_iff.1 hv with ⟨pe, hp, hv⟩ | ⟨c, hc, hv⟩
  · exact hown pe hp v hv
  · exact hkids c hc v hv

theorem Extends.allWild_iff (he : ar.Extends ar') (hlt : id < ar.size) :
    ar'.AllWild cs id ↔ ar.AllWild cs id := by
  unfold AllWild
  rw [he.varsOf_eq id hlt]

theorem WildForced.mono (h : ar.WildForced cs id) (hp : cs.entries <+: cs'.entries) :
    ar.WildForced cs' id :=
  fun v hv => (h v hv).mono hp

theorem WildForced.extend (h : ar.WildForced cs id) (he : ar.Extends ar') (hlt : id < ar.size) :
    ar'.WildForced cs id := by
  unfold WildForced
  rw [he.varsOf_eq id hlt]
  exact h

theorem WildForced.allWild (h : ar.WildForced cs id) (hc : cs.Closed cs.env) : ar.AllWild cs id :=
  fun v hv => Qualifier.eq_wild_of_wild_le (hc.holds (h v hv))

theorem wildForced_constrainToWild (ar : Arena) (cs : ConstraintStore) (id : Nat) (reason : String)
    (loc : Option SourceLoc) : ar.WildForced (ar.constrainToWild cs id reason loc) id :=
  (asks_constrainToWild ar cs id reason loc).2

theorem wildForced_constrainSetToWild (ar : Arena) (cs : ConstraintStore) (s : SortedSet Nat)
    (reason : String) (loc : Option SourceLoc) :
    ∀ c ∈ s.toList, ar.WildForced (ar.constrainSetToWild cs s reason loc) c :=
  (foldl_appends (P := fun c cs => ar.WildForced cs c) (fun _ _ _ h hp => h.mono hp)
    (fun cs c => ⟨(asks_constrainToWild ar cs c reason loc).1, wildForced_constrainToWild ar cs c reason loc⟩)
    s.toList cs).2

/-! ## Entries tied together -/

/-- In every closed store that asks at least what `cs` asks, `a` is `wild` throughout exactly when
`b` is. -/
def WildTied (ar : Arena) (cs : ConstraintStore) (a b : Nat) : Prop :=
  ∀ cs' : ConstraintStore, cs.entries <+: cs'.entries → cs'.Closed cs'.env →
    (ar.AllWild cs' a ↔ ar.AllWild cs' b)

theorem WildTied.mono (h : ar.WildTied cs a b) (hp : cs.entries <+: cs'.entries) : ar.WildTied cs' a b :=
  fun cs'' hp' hc => h cs'' (hp.trans hp') hc

theorem wildTied_self (ar : Arena) (cs : ConstraintStore) (a : Nat) : ar.WildTied cs a a :=
  fun _ _ _ => Iff.rfl

theorem allWild_forall₂_iff {l l' : List Nat}
    (h : List.Forall₂ (fun x y => ar.AllWild cs x ↔ ar.AllWild cs y) l l') :
    (∀ x ∈ l, ar.AllWild cs x) ↔ ∀ y ∈ l', ar.AllWild cs y := by
  induction h with
  | nil => simp
  | cons hxy _ ih => simp only [List.mem_cons, forall_eq_or_imp, hxy, ih]

/-- Along a sequence whose neighbours are `wild` together, all members are `wild` together. -/
theorem allWild_iff_of_isChain :
    ∀ {l : List Nat}, l.IsChain (fun x y => ar.AllWild cs x ↔ ar.AllWild cs y) →
      ∀ x ∈ l, ∀ y ∈ l, (ar.AllWild cs x ↔ ar.AllWild cs y)
  | [], _ => fun x hx => absurd hx List.not_mem_nil
  | [_], _ => fun x hx y hy => by rw [List.mem_singleton.1 hx, List.mem_singleton.1 hy]
  | a :: b :: l, h => by
    obtain ⟨hab, hrest⟩ := List.isChain_cons_cons.1 h
    -- every member is tied to `b`
    have hb : ∀ z ∈ a :: b :: l, (ar.AllWild cs z ↔ ar.AllWild cs b) := fun z hz => by
      rcases List.mem_cons.1 hz with rfl | hz
      · exact hab
      · exact allWild_iff_of_isChain hrest z hz b List.mem_cons_self
    exact fun x hx y hy => (hb x hx).trans (hb y hy).symm

/-! ## Equating entries of one shape -/

theorem ParamsShapedAs.eq_map :
    ∀ {sets : List (SortedSet Nat)} {ps : List ParamShape}, ar.ParamsShapedAs sets ps →
      ∃ xs : List Nat, sets = xs.map SortedSet.singleton ∧
        List.Forall₂ (fun x (p : ParamShape) => ar.ShapedAs x p.ty) xs ps
  | [], [], _ => ⟨[], rfl, .nil⟩
  | _ :: _, ⟨_, _, _, _⟩ :: _, ⟨⟨x, hx, hty⟩, hrest⟩ => by
    obtain ⟨xs, rfl, hxs⟩ := ParamsShapedAs.eq_map hrest
    exact ⟨x :: xs, by rw [hx]; rfl, .cons hty hxs⟩
  | [], _ :: _, h => h.elim
  | _ :: _, [], h => h.elim

theorem forall₂_shapedAlike {xs ys : List Nat} {ps : List ParamShape}
    (hx : List.Forall₂ (fun x (p : ParamShape) => ar.ShapedAs x p.ty) xs ps)
    (hy : List.Forall₂ (fun y (p : ParamShape) => ar.ShapedAs y p.ty) ys ps) :
    List.Forall₂ (fun x y => ∃ ty, ar.ShapedAs x ty ∧ ar.ShapedAs y ty) xs ys := by
  induction hx generalizing ys with
  | nil => cases hy; exact .nil
  | cons hxp _ ih =>
    cases hy with
    | cons hyp hys => exact .cons ⟨_, hxp, hyp⟩ (ih hys)

theorem constrainEqSets_singleton (cs : ConstraintStore) (x y : Nat) :
    ar.constrainEqSets cs (SortedSet.singleton x) (SortedSet.singleton y) reason loc =
      ar.constrainEq cs x y reason loc := by
  simp [constrainEqSets]

theorem constrainEq_functions (hrefs : ar.RefsBelow) (hab : a ≠ b) {fa fb : FunctionEntry}
    (ha : ar.function? a = some fa) (hb : ar.function? b = some fb)
    (hl : fa.params.length = fb.params.length) :
    ar.constrainEq cs a b reason loc =
      (fa.params.zip fb.params).foldl (fun cs x => ar.constrainEqSets cs x.1 x.2 reason loc)
        (ar.constrainEqSets cs fa.returns fb.returns reason loc) := by
  rw [constrainEq, if_neg (by simpa using hab)]
  simp only [function?_eq_some.1 ha, function?_eq_some.1 hb]
  -- what the two functions embed comes before them, so every guard of the walks holds
  rw [eqSets_eq (fun i hi => hrefs.return_lt ha hi) (fun j hj => hrefs.return_lt hb hj), if_pos (by simpa using hl)]
  exact List.foldl_ext _ _ _ fun cs x hx =>
    eqSets_eq (fun i hi => hrefs.param_lt ha (List.of_mem_zip hx).1 hi)
      (fun j hj => hrefs.param_lt hb (List.of_mem_zip hx).2 hj) cs

theorem constrainEq_embedded (hab : a ≠ b) {pa pb : PointerEntry} {fa fb : Nat}
    (ha : ar.pointer? a = some pa) (hb : ar.pointer? b = some pb) (hl : pa.slots.length = pb.slots.length)
    (hfa : pa.function = some fa) (hfb : pb.function = some fb) (hlt : fa < a ∧ fb < b) :
    ar.constrainEq cs a b reason loc =
      ar.constrainEq ((pa.slots.zip pb.slots).foldl
        (fun cs x => (cs.addEq (.var x.1) (.var x.2) reason loc).2) cs) fa fb reason loc := by
  rw [constrainEq, if_neg (by simpa using hab)]
  simp only [pointer?_eq_some.1 ha, pointer?_eq_some.1 hb, hfa, hfb, hl, bne_self_eq_false,
    Bool.false_eq_true, if_false, dif_pos hlt]

section Tie

variable (hs : ar.SlotsBelow n) (hrefs : ar.RefsBelow) (hr : reason ≠ Reason.arrayDecl)
include hs hrefs hr

theorem wildTied_functions
    (ih : ∀ (ty : TypeShape) (x y : Nat) (cs : ConstraintStore), x + y < a + b → ar.ShapedAs x ty →
      ar.ShapedAs y ty → n ≤ cs.numVars → ar.WildTied (ar.constrainEq cs x y reason loc) x y)
    (hab : a ≠ b) {f : FunctionShape} (ha : ar.FunctionShapedAs a f) (hb : ar.FunctionShapedAs b f)
    (hcs : n ≤ cs.numVars) : ar.WildTied (ar.constrainEq cs a b reason loc) a b := by
  obtain ⟨ret, params, _, _⟩ := f
  obtain ⟨fa, hfa, ⟨ra, hra, hreta⟩, hpsa⟩ := ha
  obtain ⟨fb, hfb, ⟨rb, hrb, hretb⟩, hpsb⟩ := hb
  obtain ⟨xsa, hxsa, hsha⟩ := hpsa.eq_map
  obtain ⟨xsb, hxsb, hshb⟩ := hpsb.eq_map
  have halike := forall₂_shapedAlike hsha hshb
  -- the entries embedded in each: the return, then one alternative per parameter
  have hka : ar.children a = ra :: xsa := by
    rw [children_of_function hfa, hra, hxsa]
    simp [List.flatMap_map]
  have hkb : ar.children b = rb :: xsb := by
    rw [children_of_function hfb, hrb, hxsb]
    simp [List.flatMap_map]
  have hlt : ∀ x ∈ xsa.zip xsb, x.1 + x.2 < a + b := fun x hx =>
    Nat.add_lt_add (hrefs.back a x.1 (hka ▸ List.mem_cons_of_mem _ (List.of_mem_zip hx).1))
      (hrefs.back b x.2 (hkb ▸ List.mem_cons_of_mem _ (List.of_mem_zip hx).2))
  have hl : fa.params.length = fb.params.length := by
    rw [hxsa, hxsb, List.length_map, List.length_map, halike.length_eq]
  rw [constrainEq_functions hrefs hab hfa hfb hl, hra, hrb, hxsa, hxsb, constrainEqSets_singleton,
    List.zip_map, List.foldl_map]
  simp only [Prod.map_fst, Prod.map_snd, constrainEqSets_singleton]
  -- the returns are tied first, then every parameter position, and the rest only grows the store
  have hret := ih ret ra rb cs (Nat.add_lt_add (hrefs.back a ra (by simp [hka]))
    (hrefs.back b rb (by simp [hkb]))) hreta hretb hcs
  have hg₁ : cs.Grows (ar.constrainEq cs ra rb reason loc) := growsFrom_constrainEq hs hr ra rb cs hcs
  obtain ⟨hg₂, hpar⟩ := foldl_grows (n := n) (P := fun (x : Nat × Nat) cs => ar.WildTied cs x.1 x.2)
    (fun _ _ _ h he => h.mono he.entries) (f := fun cs x => ar.constrainEq cs x.1 x.2 reason loc)
    (xsa.zip xsb) (fun x hx cs hcs => by
      obtain ⟨ty, hx₁, hx₂⟩ := (List.forall₂_iff_zip.1 halike).2 hx
      exact ⟨growsFrom_constrainEq hs hr x.1 x.2 cs hcs, ih ty x.1 x.2 cs (hlt x hx) hx₁ hx₂ hcs⟩)
    (ar.constrainEq cs ra rb reason loc) (Nat.le_trans hcs hg₁.extends.numVars_le)
  intro cs' hp hc
  have hnone : ∀ {id f}, ar.function? id = some f → ar.pointer? id = none := fun hf => by
    simp [pointer?, function?_eq_some.1 hf]
  rw [hrefs.allWild_iff, hrefs.allWild_iff, hka, hkb]
  simp only [hnone hfa, hnone hfb, reduceCtorEq, false_implies, implies_true, true_and]
  refine allWild_forall₂_iff (.cons (hret.mono hg₂.extends.entries cs' hp hc) ?_)
  exact List.forall₂_iff_zip.2 ⟨halike.length_eq, fun hxy => hpar _ hxy cs' hp hc⟩

theorem wildTied_pointers
    (ih : ∀ (ty : TypeShape) (x y : Nat) (cs : ConstraintStore), x + y < a + b → ar.ShapedAs x ty →
      ar.ShapedAs y ty → n ≤ cs.numVars → ar.WildTied (ar.constrainEq cs x y reason loc) x y)
    (hab : a ≠ b) {pa pb : PointerEntry} (ha : ar.pointer? a = some pa) (hb : ar.pointer? b = some pb)
    (hl : pa.slots.length = pb.slots.length) {g : Option FunctionShape}
    (hea : ar.EmbeddedShapedAs pa.function g) (heb : ar.EmbeddedShapedAs pb.function g)
    (hcs : n ≤ cs.numVars) : ar.WildTied (ar.constrainEq cs a b reason loc) a b := by
  intro cs' hp hc
  -- slot against slot
  have hagree : cs'.Agree pa.slots pb.slots :=
    ((equates_constrainEq (hs.mono hcs) hr hab ha hb).mono hp).agree hc
  have hown : ∀ {id pe}, ar.pointer? id = some pe →
      ((∀ pe', ar.pointer? id = some pe' → ∀ v ∈ pe'.slots, cs'.assignment v = .wild) ↔
        ∀ v ∈ pe.slots, cs'.assignment v = .wild) := fun hpe =>
    ⟨fun h => h _ hpe, fun h pe' hpe' => by rw [hpe, Option.some.injEq] at hpe'; exact hpe' ▸ h⟩
  have hkids : ∀ {id pe}, ar.pointer? id = some pe → ar.children id = pe.function.toList := fun hpe => by
    simp [children, pointer?_eq_some.1 hpe]
  rw [hrefs.allWild_iff, hrefs.allWild_iff, hown ha, hown hb, hkids ha, hkids hb, hagree.wild_iff]
  refine and_congr_right fun _ => ?_
  -- then the embedded functions, equated last
  cases g with
  | none =>
    cases hfa : pa.function with
    | some _ => rw [hfa] at hea; exact hea.elim
    | none =>
      cases hfb : pb.function with
      | some _ => rw [hfb] at heb; exact heb.elim
      | none => simp
  | some g =>
    cases hfa : pa.function with
    | none => rw [hfa] at hea; exact hea.elim
    | some fa =>
      cases hfb : pb.function with
      | none => rw [hfb] at heb; exact heb.elim
      | some fb =>
        rw [hfa] at hea
        rw [hfb] at heb
        have hlt : fa < a ∧ fb < b :=
          ⟨hrefs.function_lt ha hfa, hrefs.function_lt hb hfb⟩
        have hgrow : cs.Grows ((pa.slots.zip pb.slots).foldl
            (fun cs x => (cs.addEq (.var x.1) (.var x.2) reason loc).2) cs) := by
          refine GrowsFrom.foldl (fun x hx => GrowsFrom.addEq ?_ ?_ hr) cs hcs
          · rintro v ⟨⟩
            exact hs a pa ha _ (List.of_mem_zip hx).1
          · rintro v ⟨⟩
            exact hs b pb hb _ (List.of_mem_zip hx).2
        have htie := ih ⟨"", [], some g⟩ fa fb _ (Nat.add_lt_add hlt.1 hlt.2) (by rw [ShapedAs]; exact hea)
          (by rw [ShapedAs]; exact heb) (Nat.le_trans hcs hgrow.extends.numVars_le)
        rw [constrainEq_embedded hab ha hb hl hfa hfb hlt] at hp
        simpa using htie cs' hp hc

/-- Equating two entries built from one type shape ties them: in every closed store that asks at
least as much, one is `wild` throughout exactly when the other is. -/
theorem wildTied_constrainEq :
    ∀ (ty : TypeShape) (a b : Nat) (cs : ConstraintStore), ar.ShapedAs a ty → ar.ShapedAs b ty →
      n ≤ cs.numVars → ar.WildTied (ar.constrainEq cs a b reason loc) a b := by
  -- every recursive call equates entries of smaller numbers on both sides
  intro ty a b
  induction a, b using sum_induction generalizing ty with
  | step a b ih =>
    intro cs ha hb hcs
    obtain ⟨base, levels, function⟩ := ty
    have ih' : ∀ (ty : TypeShape) (x y : Nat) (cs : ConstraintStore), x + y < a + b → ar.ShapedAs x ty →
        ar.ShapedAs y ty → n ≤ cs.numVars → ar.WildTied (ar.constrainEq cs x y reason loc) x y :=
      fun ty x y cs hxy => ih x y hxy ty cs
    by_cases hab : a = b
    · subst hab
      exact wildTied_self ar _ a
    by_cases hbare : levels = [] ∧ function.isSome
    · -- a bare function type: two function entries
      obtain ⟨rfl, hsome⟩ := hbare
      obtain ⟨f, rfl⟩ := Option.isSome_iff_exists.1 hsome
      rw [ShapedAs] at ha hb
      exact wildTied_functions hs hrefs hr ih' hab ha hb hcs
    · -- any other type: two pointer entries of its depth
      have hne : levels ≠ [] ∨ function = none := by
        cases levels with
        | nil => exact .inr (by simpa using hbare)
        | cons l ls => exact .inl (List.cons_ne_nil l ls)
      obtain ⟨pa, hpa, hla, hea⟩ := (shapedAs_pointer_iff hne).1 ha
      obtain ⟨pb, hpb, hlb, heb⟩ := (shapedAs_pointer_iff hne).1 hb
      exact wildTied_pointers hs hrefs hr ih' hab hpa hpb (hla.trans hlb.symm) hea heb hcs

end Tie

end Arena

end CheckedPointers
