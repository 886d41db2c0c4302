import CheckedPointers.Proofs.WildTies
import CheckedPointers.Proofs.StoreIndex

/-!
# Equating is symmetric

Equating two entries (`Arena.constrainEq`) walks them level by level and adds constraints as it
goes. Read as a set of relations, what it adds depends neither on the store it starts from nor on
the order of its walks: besides what the store asked, it asks exactly the relations
`Arena.EquateAsks a b` (`Arena.addsExactly_constrainEq`). That description is symmetric in the two
entries (`Arena.equateAsks_comm`), so equating `a` with `b` and `b` with `a` leave the same
relations asked.

In a closed store that asks them, two entries of the arena are related shape by shape
(`Arena.Equated`): pointers of one depth have the same solved chain and their embedded functions
are related in turn, pointers of different depths are `wild` throughout, a function against a
pointer is related to the pointer's embedded function or, when it has none, both are `wild`
throughout, and two functions have their return alternatives related pairwise, and their
parameter alternatives position by position or, prototyped with different arities, are both
`wild` throughout. So after either order of equating and a solve, the two entries are related
(`Arena.constrainEq_comm_equated`).
-/

namespace CheckedPointers

open ConstraintStore

namespace ConstraintStore

variable {f g : ConstraintStore → ConstraintStore} {D E : Relation → Prop}

/-- Running `f` on any store asks what the store asked and, besides, exactly the relations `D`. -/
def AddsExactly (f : ConstraintStore → ConstraintStore) (D : Relation → Prop) : Prop :=
  ∀ cs r, (f cs).Asks r ↔ cs.Asks r ∨ D r

theorem AddsExactly.comp (hf : AddsExactly f D) (hg : AddsExactly g E) :
    AddsExactly (fun cs => g (f cs)) (fun r => D r ∨ E r) := fun cs r => by
  rw [hg, hf, or_assoc]

theorem AddsExactly.congr (h : AddsExactly f D) (hDE : ∀ r, D r ↔ E r) : AddsExactly f E :=
  fun cs r => by rw [h, hDE]

theorem AddsExactly.dite {c : Prop} [Decidable c] {f : c → ConstraintStore → ConstraintStore}
    {D : c → Relation → Prop} (h : ∀ hc, AddsExactly (f hc) (D hc)) :
    AddsExactly (fun cs => if hc : c then f hc cs else cs) (fun r => ∃ hc : c, D hc r) := by
  intro cs r
  by_cases hc : c
  · simp only [dif_pos hc, h hc cs r, exists_prop_of_true hc]
  · simp [hc]

theorem AddsExactly.ite {c : Bool} (h : AddsExactly f D) :
    AddsExactly (fun cs => if c = true then f cs else cs) (fun r => c = true ∧ D r) :=
  (AddsExactly.dite fun _ => h).congr fun _ => exists_prop

theorem addsExactly_foldl {β : Type} {h : ConstraintStore → β → ConstraintStore} {D : β → Relation → Prop}
    (hstep : ∀ x, AddsExactly (h · x) (D x)) :
    ∀ l : List β, AddsExactly (fun cs => l.foldl h cs) (fun r => ∃ x ∈ l, D x r)
  | [] => fun cs r => by simp
  | x :: l => fun cs r => by
    dsimp only
    rw [List.foldl_cons, addsExactly_foldl hstep l, hstep x]
    simp [or_assoc]

theorem addsExactly_add {r : Relation} (hr : ¬ r.IsConstConst) (reason : String) (loc : Option SourceLoc) :
    AddsExactly (fun cs => (cs.add r reason loc).2) (· = r) := by
  intro cs r'
  dsimp only
  rcases add_spec cs r reason loc with ⟨h, hin⟩ | ⟨_, h, -, -⟩
  · -- refused: the store asks for it already
    have hasks : cs.Asks r := hin.resolve_left hr
    rw [h]
    exact ⟨.inl, fun h' => h'.elim id fun h' => h' ▸ hasks⟩
  · rw [h]
    simp [Asks, eq_comm]

theorem mkEq_var_comm (x y : Nat) : Relation.mkEq (.var x) (.var y) = Relation.mkEq (.var y) (.var x) :=
  (Relation.mkEq_comm _ _).resolve_right fun ⟨_, _, h, _⟩ => nomatch h

theorem addsExactly_addEq (x y : Nat) (reason : String) (loc : Option SourceLoc) :
    AddsExactly (fun cs => (cs.addEq (.var x) (.var y) reason loc).2) (· = Relation.mkEq (.var x) (.var y)) := by
  simp only [addEq_snd]
  exact addsExactly_add (fun ⟨c, d, h⟩ => Arena.mkEq_vars_ne_consts x y c d h) reason loc

end ConstraintStore

namespace Arena

variable (ar : Arena) {a b : Nat} {r : Relation} {reason : String} {loc : Option SourceLoc}

/-- `r` asks one of the slots the entry reaches to be `wild`. -/
def ForcesWild (id : Nat) (r : Relation) : Prop := ∃ v ∈ (ar.varsOf id).toList, r = .geq v .wild

theorem addsExactly_constrainToWild (id : Nat) (reason : String) (loc : Option SourceLoc) :
    AddsExactly (ar.constrainToWild · id reason loc) (ar.ForcesWild id) :=
  addsExactly_foldl (fun v => addsExactly_add (r := .geq v .wild) (fun ⟨_, _, h⟩ => nomatch h) reason loc) _

/-- The relations equating `a` with `b` asks for: the recursion of `constrainEq`, with its walks
read as unions. -/
def EquateAsks (a b : Nat) (r : Relation) : Prop :=
  a ≠ b ∧
    match ar.get? a, ar.get? b with
    | some (.pointer pa), some (.pointer pb) =>
      if pa.slots.length = pb.slots.length then
        (∃ x ∈ pa.slots.zip pb.slots, r = Relation.mkEq (.var x.1) (.var x.2)) ∨
          ∃ fa fb, pa.function = some fa ∧ pb.function = some fb ∧ ∃ _ : fa < a ∧ fb < b, EquateAsks fa fb r
      else (pa.slots ≠ [] ∨ pb.slots ≠ []) ∧ (ar.ForcesWild a r ∨ ar.ForcesWild b r)
    | some (.function fa), some (.function fb) =>
      (∃ i ∈ fa.returns.toList, ∃ j ∈ fb.returns.toList, ∃ _ : i < a ∧ j < b, EquateAsks i j r) ∨
        if fa.params.length = fb.params.length then
          ∃ x ∈ fa.params.zip fb.params, ∃ i ∈ x.1.toList, ∃ j ∈ x.2.toList, ∃ _ : i < a ∧ j < b,
            EquateAsks i j r
        else fa.hasPrototype ∧ fb.hasPrototype ∧ (ar.ForcesWild a r ∨ ar.ForcesWild b r)
    | some (.pointer p), some (.function _) =>
      (∃ inner, p.function = some inner ∧ ∃ _ : inner < a, EquateAsks inner b r) ∨
        p.function = none ∧ (ar.ForcesWild a r ∨ ar.ForcesWild b r)
    | some (.function _), some (.pointer p) =>
      (∃ inner, p.function = some inner ∧ ∃ _ : inner < b, EquateAsks inner a r) ∨
        p.function = none ∧ (ar.ForcesWild a r ∨ ar.ForcesWild b r)
    | _, _ => False
termination_by a + b

/-- Equating `a` with `b` asks, besides what the store asked, exactly `EquateAsks a b`. -/
theorem addsExactly_constrainEq (a b : Nat) :
    AddsExactly (ar.constrainEq · a b reason loc) (ar.EquateAsks a b) := by
  -- every recursive call equates entries of smaller numbers on both sides
  induction a, b using sum_induction with
  | step a b ih =>
    have hsets : ∀ x y : SortedSet Nat, AddsExactly (fun cs => x.toList.attach.foldl (fun cs i =>
        y.toList.attach.foldl (fun cs j =>
          if _h : i.1 < a ∧ j.1 < b then ar.constrainEq cs i.1 j.1 reason loc else cs) cs) cs)
        (fun r => ∃ i ∈ x.toList, ∃ j ∈ y.toList, ∃ _ : i < a ∧ j < b, ar.EquateAsks i j r) := by
      intro x y
      refine (addsExactly_foldl (fun (i : {i // i ∈ x.toList}) => addsExactly_foldl
        (fun (j : {j // j ∈ y.toList}) => AddsExactly.dite fun hij => ih i.1 j.1 (by omega)) _) _).congr
          fun r => ?_
      simp only [List.mem_attach, true_and, Subtype.exists, exists_prop]
    have hzip : ∀ l : List (Nat × Nat), AddsExactly
        (fun cs => l.foldl (fun cs x => (cs.addEq (.var x.1) (.var x.2) reason loc).2) cs)
        (fun r => ∃ x ∈ l, r = Relation.mkEq (.var x.1) (.var x.2)) :=
      addsExactly_foldl fun x => addsExactly_addEq x.1 x.2 reason loc
    have hboth : ∀ why, AddsExactly (fun cs => ar.constrainToWild (ar.constrainToWild cs a why loc) b why loc)
        (fun r => ar.ForcesWild a r ∨ ar.ForcesWild b r) :=
      fun why => (ar.addsExactly_constrainToWild a why loc).comp (ar.addsExactly_constrainToWild b why loc)
    intro cs r
    dsimp only
    rw [constrainEq, EquateAsks]
    dsimp only
    by_cases hab : a = b
    · subst hab
      simp
    rw [if_neg (by simpa using hab)]
    simp only [ne_eq, hab, not_false_eq_true, true_and]
    cases ha : ar.get? a with
    | none => simp
    | some ea =>
    cases hb : ar.get? b with
    | none => cases ea <;> simp
    | some eb =>
    cases ea with
    | pointer pa =>
      cases eb with
      | pointer pb =>
        -- two pointers: level by level, then their embedded functions
        dsimp only
        by_cases hl : pa.slots.length = pb.slots.length
        · rw [if_neg (by simpa using hl), if_pos hl]
          cases hfa : pa.function with
          | none => simpa using hzip _ cs r
          | some fa =>
            cases hfb : pb.function with
            | none => simpa using hzip _ cs r
            | some fb =>
              dsimp only
              refine ((hzip _).comp (AddsExactly.dite fun (hlt : fa < a ∧ fb < b) =>
                ih fa fb (by omega)) cs r).trans (or_congr_right ?_)
              simp
        · rw [if_pos (by simpa using hl), if_neg hl]
          refine ((hboth _).ite cs r).trans (or_congr_right ?_)
          simp
      | function fb =>
        -- a pointer against a function: its embedded function against the function
        dsimp only
        cases hp : pa.function with
        | none => simpa using hboth _ cs r
        | some inner =>
          refine ((AddsExactly.dite fun (hlt : inner < a) => ih inner b (by omega)) cs r).trans
            (or_congr_right ?_)
          simp
    | function fa =>
      cases eb with
      | pointer pb =>
        dsimp only
        cases hp : pb.function with
        | none => simpa using hboth _ cs r
        | some inner =>
          refine ((AddsExactly.dite fun (hlt : inner < b) => ih inner a (by omega)) cs r).trans
            (or_congr_right ?_)
          simp
      | function fb =>
        -- two functions: returns, then parameters position by position
        dsimp only
        by_cases hl : fa.params.length = fb.params.length
        · rw [if_pos (by simpa using hl), if_pos hl]
          exact ((hsets _ _).comp
            (addsExactly_foldl (fun (x : SortedSet Nat × SortedSet Nat) => hsets x.1 x.2) _)) cs r
        · rw [if_neg (by simpa using hl), if_neg hl]
          refine ((hsets _ _).comp (hboth _).ite cs r).trans (or_congr_right ?_)
          simp [and_assoc]

theorem exists_mem_zip_comm {α β : Type} {P : α × β → Prop} {l : List α} {l' : List β} :
    (∃ x ∈ l.zip l', P x) ↔ ∃ x ∈ l'.zip l, P x.swap := by
  constructor
  · rintro ⟨x, hx, h⟩
    exact ⟨x.swap, by rw [← List.zip_swap]; exact List.mem_map_of_mem hx, by rwa [Prod.swap_swap]⟩
  · rintro ⟨x, hx, h⟩
    exact ⟨x.swap, by rw [← List.zip_swap]; exact List.mem_map_of_mem hx, h⟩

/-- What equating asks does not depend on the order of the two entries. -/
theorem equateAsks_comm (a b : Nat) (r : Relation) : ar.EquateAsks a b r ↔ ar.EquateAsks b a r := by
  -- both sides unfold in mirrored shapes, with recursive calls on smaller pairs
  induction a, b using sum_induction with
  | step a b ih =>
    -- the alternatives of two sets, each pair equated either way round
    have hsets : ∀ x y : SortedSet Nat,
        (∃ i ∈ x.toList, ∃ j ∈ y.toList, ∃ _ : i < a ∧ j < b, ar.EquateAsks i j r) ↔
          ∃ j ∈ y.toList, ∃ i ∈ x.toList, ∃ _ : j < b ∧ i < a, ar.EquateAsks j i r := by
      intro x y
      constructor
      · rintro ⟨i, hi, j, hj, hlt, h⟩
        exact ⟨j, hj, i, hi, ⟨hlt.2, hlt.1⟩, (ih i j (by omega)).1 h⟩
      · rintro ⟨j, hj, i, hi, hlt, h⟩
        exact ⟨i, hi, j, hj, ⟨hlt.2, hlt.1⟩, (ih i j (by omega)).2 h⟩
    by_cases hab : a = b
    · subst hab
      rfl
    rw [EquateAsks, EquateAsks]
    simp only [ne_eq, hab, Ne.symm hab, not_false_eq_true, true_and]
    cases ha : ar.get? a with
    | none =>
      cases hb : ar.get? b with
      | none => simp
      | some eb => cases eb <;> simp
    | some ea =>
    cases hb : ar.get? b with
    | none => cases ea <;> simp
    | some eb =>
    cases ea with
    | pointer pa =>
      cases eb with
      | pointer pb =>
        dsimp only
        by_cases hl : pa.slots.length = pb.slots.length
        · rw [if_pos hl, if_pos hl.symm]
          refine or_congr ?_ ?_
          · -- one equality per level, either way round
            rw [exists_mem_zip_comm]
            exact exists_congr fun x => and_congr_right fun _ => by
              rw [Prod.fst_swap, Prod.snd_swap, mkEq_var_comm]
          · -- the embedded functions
            constructor
            · rintro ⟨fa, fb, hfa, hfb, hlt, h⟩
              exact ⟨fb, fa, hfb, hfa, ⟨hlt.2, hlt.1⟩, (ih fa fb (by omega)).1 h⟩
            · rintro ⟨fb, fa, hfb, hfa, hlt, h⟩
              exact ⟨fa, fb, hfa, hfb, ⟨hlt.2, hlt.1⟩, (ih fa fb (by omega)).2 h⟩
        · rw [if_neg hl, if_neg (Ne.symm hl)]
          exact and_congr or_comm or_comm
      | function fb =>
        dsimp only
        exact or_congr Iff.rfl (and_congr Iff.rfl or_comm)
    | function fa =>
      cases eb with
      | pointer pb =>
        dsimp only
        exact or_congr Iff.rfl (and_congr Iff.rfl or_comm)
      | function fb =>
        dsimp only
        refine or_congr (hsets _ _) ?_
        by_cases hl : fa.params.length = fb.params.length
        · rw [if_pos hl, if_pos hl.symm, exists_mem_zip_comm]
          exact exists_congr fun x => and_congr_right fun _ => hsets x.2 x.1
        · rw [if_neg hl, if_neg (Ne.symm hl)]
          exact ⟨fun ⟨h₁, h₂, h₃⟩ => ⟨h₂, h₁, h₃.symm⟩, fun ⟨h₁, h₂, h₃⟩ => ⟨h₂, h₁, h₃.symm⟩⟩

/-! ## What equating leaves in a solved store -/

/-- What equating `a` with `b` makes of a store that grants what it asked, shape by shape. Two
pointers of one depth have the same solved chain, and their embedded functions, when both have
one, are related in turn; pointers of different depths are `wild` throughout. A pointer against a
function is related through its embedded function, or both are `wild` throughout when it has none.
Two functions have every return alternative of one related to every return alternative of the
other, and so for the parameters position by position when they have as many; prototyped with
different parameter counts, both are `wild` throughout. An entry is related to itself, since
equating it with itself asks nothing. -/
inductive Equated (ar : Arena) (cs : ConstraintStore) : Nat → Nat → Prop
  | self (a : Nat) : Equated ar cs a a
  | pointers {a b : Nat} {pa pb : PointerEntry} (ha : ar.pointer? a = some pa)
      (hb : ar.pointer? b = some pb) (hl : pa.slots.length = pb.slots.length)
      (hchain : ar.solvedChain cs a = ar.solvedChain cs b)
      (hfun : ∀ fa fb, pa.function = some fa → pb.function = some fb → Equated ar cs fa fb) :
      Equated ar cs a b
  | depths {a b : Nat} {pa pb : PointerEntry} (ha : ar.pointer? a = some pa)
      (hb : ar.pointer? b = some pb) (hl : pa.slots.length ≠ pb.slots.length)
      (hwa : ar.AllWild cs a) (hwb : ar.AllWild cs b) : Equated ar cs a b
  | functions {a b : Nat} {fa fb : FunctionEntry} (ha : ar.function? a = some fa)
      (hb : ar.function? b = some fb)
      (hret : ∀ x ∈ fa.returns.toList, ∀ y ∈ fb.returns.toList, Equated ar cs x y)
      (hparams : fa.params.length = fb.params.length →
        ∀ p ∈ fa.params.zip fb.params, ∀ x ∈ p.1.toList, ∀ y ∈ p.2.toList, Equated ar cs x y)
      (harity : fa.params.length ≠ fb.params.length → fa.hasPrototype = true →
        fb.hasPrototype = true → ar.AllWild cs a ∧ ar.AllWild cs b) :
      Equated ar cs a b
  | pointerFunction {a b inner : Nat} {p : PointerEntry} {f : FunctionEntry}
      (ha : ar.pointer? a = some p) (hb : ar.function? b = some f) (hinner : p.function = some inner)
      (h : Equated ar cs inner b) : Equated ar cs a b
  | functionPointer {a b inner : Nat} {f : FunctionEntry} {p : PointerEntry}
      (ha : ar.function? a = some f) (hb : ar.pointer? b = some p) (hinner : p.function = some inner)
      (h : Equated ar cs inner a) : Equated ar cs a b
  | unembedded {a b : Nat} {p : PointerEntry} {f : FunctionEntry}
      (hshape : ar.pointer? a = some p ∧ ar.function? b = some f ∨
        ar.function? a = some f ∧ ar.pointer? b = some p)
      (hnone : p.function = none) (hwa : ar.AllWild cs a) (hwb : ar.AllWild cs b) : Equated ar cs a b

variable {ar} {cs : ConstraintStore}

theorem equated_of_asks (hrefs : ar.RefsBelow) (hc : cs.Closed cs.env) :
    ∀ a b, a < ar.size → b < ar.size → (∀ r, ar.EquateAsks a b r → cs.Asks r) → ar.Equated cs a b := by
  -- by the sum of the two numbers: what the entries embed comes before them
  intro a b
  induction a, b using sum_induction with
  | step a b ih =>
    intro hsa hsb hask
    by_cases hab : a = b
    · subst hab
      exact .self a
    -- forcing both asks for every slot they reach to be `wild`, which the store grants
    have hboth : (∀ r, (ar.ForcesWild a r ∨ ar.ForcesWild b r) → cs.Asks r) →
        ar.AllWild cs a ∧ ar.AllWild cs b := fun h =>
      ⟨WildForced.allWild (fun v hv => h _ (.inl ⟨v, hv, rfl⟩)) hc,
        WildForced.allWild (fun v hv => h _ (.inr ⟨v, hv, rfl⟩)) hc⟩
    unfold EquateAsks at hask
    simp only [ne_eq, hab, not_false_eq_true, true_and] at hask
    obtain ⟨ea, hea⟩ : ∃ e, ar.get? a = some e := ⟨_, Array.getElem?_eq_getElem hsa⟩
    obtain ⟨eb, heb⟩ : ∃ e, ar.get? b = some e := ⟨_, Array.getElem?_eq_getElem hsb⟩
    rw [hea, heb] at hask
    cases ea with
    | pointer pa =>
      have hpa : ar.pointer? a = some pa := pointer?_eq_some.2 hea
      cases eb with
      | pointer pb =>
        have hpb : ar.pointer? b = some pb := pointer?_eq_some.2 heb
        by_cases hl : pa.slots.length = pb.slots.length
        · simp only [if_pos hl] at hask
          refine .pointers hpa hpb hl ?_ fun fa fb hfa hfb => ?_
          · -- level by level, the two slots are asked to be equal
            rw [solvedChain_of_pointer hpa, solvedChain_of_pointer hpb]
            exact (Equates.agree ⟨fun _ x hx => hask _ (.inl ⟨x, hx, rfl⟩), fun h => absurd hl h⟩ hc).map_eq hl
          · have hlt : fa < a ∧ fb < b := ⟨hrefs.function_lt hpa hfa, hrefs.function_lt hpb hfb⟩
            exact ih fa fb (by omega) (by omega) (by omega) fun r h => hask r (.inr ⟨fa, fb, hfa, hfb, hlt, h⟩)
        · simp only [if_neg hl] at hask
          have hne : pa.slots ≠ [] ∨ pb.slots ≠ [] := by
            by_cases h : pa.slots = []
            · exact .inr fun h' => hl (by rw [h, h'])
            · exact .inl h
          obtain ⟨hwa, hwb⟩ := hboth fun r h => hask r ⟨hne, h⟩
          exact .depths hpa hpb hl hwa hwb
      | function fb =>
        have hfb : ar.function? b = some fb := function?_eq_some.2 heb
        cases hp : pa.function with
        | none =>
          obtain ⟨hwa, hwb⟩ := hboth fun r h => hask r (.inr ⟨hp, h⟩)
          exact .unembedded (.inl ⟨hpa, hfb⟩) hp hwa hwb
        | some inner =>
          have hlt : inner < a := hrefs.function_lt hpa hp
          exact .pointerFunction hpa hfb hp
            (ih inner b (by omega) (by omega) hsb fun r h => hask r (.inl ⟨inner, hp, hlt, h⟩))
    | function fa =>
      have hfa : ar.function? a = some fa := function?_eq_some.2 hea
      cases eb with
      | pointer pb =>
        have hpb : ar.pointer? b = some pb := pointer?_eq_some.2 heb
        cases hp : pb.function with
        | none =>
          obtain ⟨hwa, hwb⟩ := hboth fun r h => hask r (.inr ⟨hp, h⟩)
          exact .unembedded (.inr ⟨hfa, hpb⟩) hp hwa hwb
        | some inner =>
          have hlt : inner < b := hrefs.function_lt hpb hp
          exact .functionPointer hfa hpb hp
            (ih inner a (by omega) (by omega) hsa fun r h => hask r (.inl ⟨inner, hp, hlt, h⟩))
      | function fb =>
        have hfb : ar.function? b = some fb := function?_eq_some.2 heb
        refine .functions hfa hfb (fun x hx y hy => ?_) (fun hl p hp x hx y hy => ?_) fun hl hpa hpb => ?_
        · have hlt : x < a ∧ y < b := ⟨hrefs.return_lt hfa hx, hrefs.return_lt hfb hy⟩
          exact ih x y (by omega) (by omega) (by omega) fun r h => hask r (.inl ⟨x, hx, y, hy, hlt, h⟩)
        · have hlt : x < a ∧ y < b :=
            ⟨hrefs.param_lt hfa (List.of_mem_zip hp).1 hx, hrefs.param_lt hfb (List.of_mem_zip hp).2 hy⟩
          exact ih x y (by omega) (by omega) (by omega) fun r h =>
            hask r (.inr (by rw [if_pos hl]; exact ⟨p, hp, x, hx, y, hy, hlt, h⟩))
        · exact hboth fun r h => hask r (.inr (by rw [if_neg hl]; exact ⟨hpa, hpb, h⟩))

theorem equated_of_solve (hrefs : ar.RefsBelow) (ha : a < ar.size) (hb : b < ar.size)
    (hask : ∀ r, ar.EquateAsks a b r → cs.Asks r) {st : SolveStats} {cs' : ConstraintStore}
    (h : cs.solve = .ok (st, cs')) : ar.Equated cs' a b := by
  -- the solve keeps the constraints and closes the store
  obtain ⟨heq, hl⟩ := leastClosed_solve h
  dsimp only at heq hl
  have hc : cs'.Closed cs'.env := by
    rw [heq]
    exact closed_withEnv_iff.2 hl.closed
  refine equated_of_asks hrefs hc a b ha hb fun r hr => ?_
  rw [heq]
  exact hask r hr

/-- Equating two entries of an arena whose references point back asks the same relations in
either order; after either order and a solve, the two entries are related shape by shape. -/
theorem constrainEq_comm_equated (hrefs : ar.RefsBelow) (ha : a < ar.size) (hb : b < ar.size)
    (cs : ConstraintStore) (reason : String) (loc : Option SourceLoc) :
    (∀ r, (ar.constrainEq cs a b reason loc).Asks r ↔ (ar.constrainEq cs b a reason loc).Asks r) ∧
      ∀ st cs', ((ar.constrainEq cs a b reason loc).solve = .ok (st, cs') ∨
        (ar.constrainEq cs b a reason loc).solve = .ok (st, cs')) → ar.Equated cs' a b := by
  refine ⟨fun r => ?_, fun st cs' hsolve => ?_⟩
  · rw [addsExactly_constrainEq, addsExactly_constrainEq, equateAsks_comm]
  rcases hsolve with h | h
  · exact equated_of_solve hrefs ha hb (fun r hr => ((ar.addsExactly_constrainEq a b) cs r).2 (.inr hr)) h
  · exact equated_of_solve hrefs ha hb
      (fun r hr => ((ar.addsExactly_constrainEq b a) cs r).2 (.inr ((equateAsks_comm ar a b r).1 hr))) h

/-- A pointer of depth one against a pointer of depth two, as a declaration `void *a` equated with
`int **b`. -/
theorem constrainEq_comm_equated_of_depths :
    let ar : Arena := ⟨#[.pointer ⟨"a", "void", [0], none, false, none, false, .empty⟩,
      .pointer ⟨"b", "int", [1, 2], none, false, none, false, .empty⟩]⟩
    ar.RefsBelow ∧ 0 < ar.size ∧ 1 < ar.size ∧
      (∀ r, (ar.constrainEq .empty 0 1 "assign" none).Asks r ↔ (ar.constrainEq .empty 1 0 "assign" none).Asks r) ∧
      ∀ st cs', ((ar.constrainEq .empty 0 1 "assign" none).solve = .ok (st, cs') ∨
        (ar.constrainEq .empty 1 0 "assign" none).solve = .ok (st, cs')) → ar.Equated cs' 0 1 := by
  intro ar
  have hrefs : ar.RefsBelow :=
    (refsBelow_empty.alloc (by simp [Entry.refs, SortedSet.toList_empty])).alloc
      (by simp [Entry.refs, SortedSet.toList_empty])
  exact ⟨hrefs, by decide, by decide, constrainEq_comm_equated hrefs (by decide) (by decide) _ _ _⟩

end Arena

end CheckedPointers
