import CheckedPointers.Proofs.Tables
import CheckedPointers.UnionFind

/-!
# Linked groups agree

Linking equates the entries recorded at one key, and the global variables of one name, each with
the next in entry order (`Program.linkGroups`). Equating two pointer entries asks for their slots
to agree one by one when they have as many, and forces every slot of both to `wild` otherwise
(`ConstraintStore.Equates`). In a closed store two such neighbours have the same solved chain or
are `wild` throughout (`ConstraintStore.Agree`), and along a sequence of neighbours this spreads:
either every member is `wild` throughout, or all have the same solved chain
(`ConstraintStore.Agree.chain_cases`).

So after a build and a solve, the members of a linked group all have the same solved chain when
they have as many slots, and are all `wild` throughout otherwise, provided the group holds pointer
entries only (`linked_pointers_agree`). A function entry recorded at a key between two pointers
splits the sequence: each pointer is equated with the function, and the two need not agree
(`function_between_pointers_breaks_agreement`).

Declarations of a function's parameter are recorded at the parameter's key only when the function
is not recorded yet; otherwise they only pass on their policy. So the order of the compilation
units decides how many entries a file owns (`unit_order_changes_file_counts`).
-/

namespace CheckedPointers

open ConstraintStore

namespace ConstraintStore

variable {cs cs' : ConstraintStore} {r : Relation} {xs ys : List Nat}

/-- Some constraint of the store asks for the relation `r`. -/
def Asks (cs : ConstraintStore) (r : Relation) : Prop := ∃ e ∈ cs.entries, e.2.relation = r

theorem Asks.mono (h : cs.Asks r) (hp : cs.entries <+: cs'.entries) : cs'.Asks r := by
  obtain ⟨e, he, hr⟩ := h
  exact ⟨e, hp.subset he, hr⟩

theorem entries_prefix_add (cs : ConstraintStore) (r : Relation) (reason : String)
    (loc : Option SourceLoc) : cs.entries <+: (cs.add r reason loc).2.entries := by
  rcases add_cases cs r reason loc with h | ⟨_, h⟩ <;> rw [h]
  exact List.prefix_append _ _

theorem asks_add (hr : ∀ a b, r ≠ .eq (.const a) (.const b)) (reason : String) (loc : Option SourceLoc) :
    (cs.add r reason loc).2.Asks r := by
  unfold add
  split
  · next a b => exact absurd rfl (hr a b)
  · split
    · next _ hid =>
      obtain ⟨c, hc, hcr⟩ := mem_of_idOf? hid
      exact ⟨_, hc, hcr⟩
    · exact ⟨_, List.mem_append_right _ (List.mem_singleton_self _), rfl⟩

theorem asks_foldl {β : Type} {l : List β} {f : ConstraintStore → β → ConstraintStore}
    {R : β → Relation} (hpre : ∀ cs x, cs.entries <+: (f cs x).entries)
    (hask : ∀ cs, ∀ x ∈ l, (f cs x).Asks (R x)) (cs : ConstraintStore) :
    cs.entries <+: (l.foldl f cs).entries ∧ ∀ x ∈ l, (l.foldl f cs).Asks (R x) := by
  induction l generalizing cs with
  | nil => exact ⟨List.prefix_refl _, fun _ h => nomatch h⟩
  | cons x xs ih =>
    obtain ⟨hp, ha⟩ := ih (fun cs y hy => hask cs y (List.mem_cons_of_mem x hy)) (f cs x)
    refine ⟨(hpre cs x).trans hp, fun y hy => ?_⟩
    rcases List.mem_cons.1 hy with rfl | hy
    · exact (hask cs y List.mem_cons_self).mono hp
    · exact ha y hy

theorem Closed.holds {env : Array Qualifier} (hc : cs.Closed env) (h : cs.Asks r) : r.Holds env := by
  obtain ⟨e, he, rfl⟩ := h
  exact hc.relations e he

/-- What equating two pointers with the slots `xs` and `ys` asks of a store: the slots agree one by
one when there are as many, and every slot of both is `wild` otherwise. -/
structure Equates (cs : ConstraintStore) (xs ys : List Nat) : Prop where
  same : xs.length = ys.length → ∀ x ∈ xs.zip ys, cs.Asks (Relation.mkEq (.var x.1) (.var x.2))
  differ : xs.length ≠ ys.length → ∀ v ∈ xs ++ ys, cs.Asks (.geq v .wild)

theorem Equates.mono (h : cs.Equates xs ys) (hp : cs.entries <+: cs'.entries) : cs'.Equates xs ys :=
  ⟨fun hl x hx => (h.same hl x hx).mono hp, fun hl v hv => (h.differ hl v hv).mono hp⟩

/-- Two pointers with the slots `xs` and `ys` agree in a store: they have the same solved chain,
or every slot of both is `wild`. -/
def Agree (cs : ConstraintStore) (xs ys : List Nat) : Prop :=
  xs.map cs.assignment = ys.map cs.assignment ∨ ∀ v ∈ xs ++ ys, cs.assignment v = .wild

theorem Agree.refl (cs : ConstraintStore) (xs : List Nat) : cs.Agree xs xs := .inl rfl

theorem mkEq_vars (a b : Nat) :
    Relation.mkEq (.var a) (.var b) = if b < a then .eq (.var b) (.var a) else .eq (.var a) (.var b) :=
  rfl

theorem holds_mkEq_vars {env : Array Qualifier} {a b : Nat} (h : (Relation.mkEq (.var a) (.var b)).Holds env) :
    read env (.var a) = read env (.var b) := by
  rw [mkEq_vars] at h
  split at h
  · exact h.symm
  · exact h

theorem Equates.agree (h : cs.Equates xs ys) (hc : cs.Closed cs.env) : cs.Agree xs ys := by
  by_cases hl : xs.length = ys.length
  · left
    -- slot by slot along the pairs of the two chains
    have hpair : ∀ x ∈ xs.zip ys, cs.assignment x.1 = cs.assignment x.2 :=
      fun x hx => holds_mkEq_vars (hc.holds (h.same hl x hx))
    calc xs.map cs.assignment = (xs.zip ys).map (cs.assignment ∘ Prod.fst) := by
          rw [← List.map_map, List.map_fst_zip (Nat.le_of_eq hl)]
      _ = (xs.zip ys).map (cs.assignment ∘ Prod.snd) := List.map_congr_left fun x hx => hpair x hx
      _ = ys.map cs.assignment := by
          rw [← List.map_map, List.map_snd_zip (Nat.le_of_eq hl.symm)]
  · right
    intro v hv
    exact Qualifier.eq_wild_of_wild_le (hc.holds (h.differ hl v hv))

theorem wild_of_map_eq (h : xs.map cs.assignment = ys.map cs.assignment)
    (hy : ∀ v ∈ ys, cs.assignment v = .wild) : ∀ v ∈ xs, cs.assignment v = .wild := by
  intro v hv
  obtain ⟨w, hw, hwv⟩ := List.mem_map.1 (h ▸ List.mem_map_of_mem hv : cs.assignment v ∈ ys.map cs.assignment)
  rw [← hwv]
  exact hy w hw

/-- Along a sequence whose neighbours agree, all members agree at once: every member is `wild`
throughout, or all have the same solved chain. -/
theorem Agree.chain_cases {α : Type} {S : α → List Nat} {l : List α}
    (h : l.IsChain fun a b => cs.Agree (S a) (S b)) :
    (∀ a ∈ l, ∀ v ∈ S a, cs.assignment v = .wild) ∨
      ∀ a ∈ l, ∀ b ∈ l, (S a).map cs.assignment = (S b).map cs.assignment := by
  induction h with
  | nil => exact .inr fun _ h => nomatch h
  | singleton a =>
    right
    intro x hx y hy
    rw [List.mem_singleton.1 hx, List.mem_singleton.1 hy]
  | @cons_cons a b l hab _ ih =>
    rcases ih with hwild | hsame
    · -- the rest is `wild`, and `a` agrees with a `wild` neighbour
      left
      intro x hx
      rcases List.mem_cons.1 hx with rfl | hx
      · rcases hab with hab | hab
        · exact wild_of_map_eq hab (hwild b List.mem_cons_self)
        · exact fun v hv => hab v (List.mem_append_left _ hv)
      · exact hwild x hx
    · rcases hab with hab | hab
      · -- `a` has the chain of `b`, which all the rest share
        right
        have hall : ∀ x ∈ a :: b :: l, (S x).map cs.assignment = (S b).map cs.assignment := by
          intro x hx
          rcases List.mem_cons.1 hx with rfl | hx
          · exact hab
          · exact hsame x hx b List.mem_cons_self
        intro x hx y hy
        rw [hall x hx, hall y hy]
      · -- `b` is `wild` throughout, and all the rest share its chain
        left
        have hb : ∀ v ∈ S b, cs.assignment v = .wild := fun v hv => hab v (List.mem_append_right _ hv)
        intro x hx
        rcases List.mem_cons.1 hx with rfl | hx
        · exact fun v hv => hab v (List.mem_append_left _ hv)
        · exact wild_of_map_eq (hsame x hx b List.mem_cons_self) hb

end ConstraintStore

namespace Arena

variable {ar ar' : Arena} {cs cs' : ConstraintStore} {a b : Nat} {pa pb : PointerEntry}
  {reason : String} {loc : Option SourceLoc}

theorem asks_constrainToWild (ar : Arena) (cs : ConstraintStore) (id : Nat) (reason : String)
    (loc : Option SourceLoc) :
    cs.entries <+: (ar.constrainToWild cs id reason loc).entries ∧
      ∀ v ∈ (ar.varsOf id).toList, (ar.constrainToWild cs id reason loc).Asks (.geq v .wild) :=
  asks_foldl (R := fun v => .geq v .wild) (fun cs v => entries_prefix_add cs _ _ _)
    (fun cs v _ => asks_add (fun _ _ h => by cases h) _ _) cs

theorem mkEq_vars_ne_consts (x y : Nat) : ∀ c d, Relation.mkEq (.var x) (.var y) ≠ .eq (.const c) (.const d) := by
  intro c d h
  rw [ConstraintStore.mkEq_vars] at h
  split at h <;> cases h

theorem equates_constrainEq (hs : ar.SlotsBelow cs.numVars) (hr : reason ≠ Reason.arrayDecl)
    (hab : a ≠ b) (ha : ar.pointer? a = some pa) (hb : ar.pointer? b = some pb) :
    (ar.constrainEq cs a b reason loc).Equates pa.slots pb.slots := by
  rw [constrainEq, if_neg (by simpa using hab)]
  simp only [pointer?_eq_some.1 ha, pointer?_eq_some.1 hb]
  split
  · -- different depths: both are forced to `wild`
    next hne =>
    have hl : pa.slots.length ≠ pb.slots.length := by simpa using hne
    have hnonempty : (!pa.slots.isEmpty || !pb.slots.isEmpty) = true := by
      cases hxs : pa.slots <;> cases hys : pb.slots <;> simp_all
    rw [if_pos hnonempty]
    obtain ⟨-, ha'⟩ := asks_constrainToWild ar cs a Reason.shapeMismatch loc
    obtain ⟨hp, hb'⟩ := asks_constrainToWild ar (ar.constrainToWild cs a Reason.shapeMismatch loc) b
      Reason.shapeMismatch loc
    refine ⟨fun h => absurd h hl, fun _ v hv => ?_⟩
    rcases List.mem_append.1 hv with hv | hv
    · exact (ha' v (mem_varsOf_of_pointer ha hv)).mono hp
    · exact hb' v (mem_varsOf_of_pointer hb hv)
  · -- the same depth: one equality per level, then the embedded functions
    next heq =>
    have hl : pa.slots.length = pb.slots.length := by simpa using heq
    have hzip : ∀ cs : ConstraintStore, cs.entries <+: ((pa.slots.zip pb.slots).foldl
          (fun cs x => (cs.addEq (.var x.1) (.var x.2) reason loc).2) cs).entries ∧
        ∀ x ∈ pa.slots.zip pb.slots, ((pa.slots.zip pb.slots).foldl
          (fun cs x => (cs.addEq (.var x.1) (.var x.2) reason loc).2) cs).Asks
            (Relation.mkEq (.var x.1) (.var x.2)) :=
      asks_foldl (fun cs x => entries_prefix_add cs _ _ _)
        (fun cs x _ => asks_add (mkEq_vars_ne_consts x.1 x.2) _ _)
    have hgrow : cs.Grows ((pa.slots.zip pb.slots).foldl
        (fun cs x => (cs.addEq (.var x.1) (.var x.2) reason loc).2) cs) := by
      refine GrowsFrom.foldl (fun x hx => GrowsFrom.addEq ?_ ?_ hr) cs (Nat.le_refl _)
      · rintro v ⟨⟩
        exact hs a pa ha _ (List.of_mem_zip hx).1
      · rintro v ⟨⟩
        exact hs b pb hb _ (List.of_mem_zip hx).2
    generalize hcs₁ : (pa.slots.zip pb.slots).foldl
      (fun cs x => (cs.addEq (.var x.1) (.var x.2) reason loc).2) cs = cs₁ at hzip hgrow
    have h₁ : cs₁.Equates pa.slots pb.slots :=
      ⟨fun _ x hx => hcs₁ ▸ (hzip cs).2 x hx, fun h => absurd hl h⟩
    have hs₁ : ar.SlotsBelow cs₁.numVars := hs.mono hgrow.extends.numVars_le
    split
    · split
      · exact h₁.mono (growsFrom_constrainEq hs₁ hr _ _ cs₁ (Nat.le_refl _)).extends.entries
      · exact h₁
    · exact h₁

theorem solvedChain_of_pointer (hp : ar.pointer? a = some pa) :
    ar.solvedChain cs a = pa.slots.map cs.assignment := by
  unfold solvedChain
  rw [pointer?_eq_some.1 hp]

/-- What linking asked of the store for the entries `ids`, in order: each pointer entry is equated
with the next when that is a pointer entry too, unless the two are one entry. -/
def Linked (ar : Arena) (cs : ConstraintStore) (ids : List Nat) : Prop :=
  ids.IsChain fun a b => a ≠ b → ∀ pa pb, ar.pointer? a = some pa → ar.pointer? b = some pb →
    cs.Equates pa.slots pb.slots

variable {ids : List Nat}

theorem linked_of_length_le_one (h : ids.length ≤ 1) : ar.Linked cs ids := by
  match ids, h with
  | [], _ => exact .nil
  | [a], _ => exact .singleton a

theorem Linked.mono (h : ar.Linked cs ids) (hp : cs.entries <+: cs'.entries) : ar.Linked cs' ids :=
  h.imp fun ⦃_ _⦄ hab hne pa pb ha hb => (hab hne pa pb ha hb).mono hp

theorem Linked.extend (h : ar.Linked cs ids) (he : ar.Extends ar') (hlt : ∀ id ∈ ids, id < ar.size) :
    ar'.Linked cs ids := by
  refine h.imp_of_mem_imp fun a b ha hb hab hne pa pb hpa hpb => ?_
  obtain ⟨pa₀, hpa₀, hsa⟩ := he.pointer?_of_lt (hlt a ha) hpa
  obtain ⟨pb₀, hpb₀, hsb⟩ := he.pointer?_of_lt (hlt b hb) hpb
  rw [← hsa, ← hsb]
  exact hab hne pa₀ pb₀ hpa₀ hpb₀

theorem Linked.agree (h : ar.Linked cs ids) (hc : cs.Closed cs.env) :
    ids.IsChain fun a b => ∀ pa pb, ar.pointer? a = some pa → ar.pointer? b = some pb →
      cs.Agree pa.slots pb.slots := by
  refine h.imp fun ⦃a b⦄ hab pa pb hpa hpb => ?_
  by_cases hne : a = b
  · -- one entry agrees with itself
    subst hne
    rw [hpa, Option.some.injEq] at hpb
    subst hpb
    exact Agree.refl _ _
  · exact (hab hne pa pb hpa hpb).agree hc

/-- Along a linked sequence of pointer entries, in a closed store, every member is `wild`
throughout or all have the same solved chain. -/
theorem Linked.chain_cases (h : ar.Linked cs ids) (hc : cs.Closed cs.env)
    (hptr : ∀ x ∈ ids, (ar.pointer? x).isSome) :
    (∀ x ∈ ids, ∀ q ∈ ar.solvedChain cs x, q = .wild) ∨
      ∀ x ∈ ids, ∀ y ∈ ids, ar.solvedChain cs x = ar.solvedChain cs y := by
  -- each member read as the slots of its pointer entry
  have hslots : ∀ x ∈ ids, ∃ pe, ar.pointer? x = some pe ∧
      ar.solvedChain cs x = (((ar.pointer? x).map PointerEntry.slots).getD []).map cs.assignment := by
    intro x hx
    obtain ⟨pe, hpe⟩ := Option.isSome_iff_exists.1 (hptr x hx)
    exact ⟨pe, hpe, by rw [solvedChain_of_pointer hpe, hpe]; rfl⟩
  have hchain : ids.IsChain fun a b => cs.Agree (((ar.pointer? a).map PointerEntry.slots).getD [])
      (((ar.pointer? b).map PointerEntry.slots).getD []) := by
    refine (h.agree hc).imp_of_mem_imp fun a b ha hb hab => ?_
    obtain ⟨pa, hpa, -⟩ := hslots a ha
    obtain ⟨pb, hpb, -⟩ := hslots b hb
    rw [hpa, hpb]
    exact hab pa pb hpa hpb
  rcases Agree.chain_cases hchain with hwild | hsame
  · left
    intro x hx q hq
    obtain ⟨pe, -, hx'⟩ := hslots x hx
    rw [hx'] at hq
    obtain ⟨v, hv, rfl⟩ := List.mem_map.1 hq
    exact hwild x hx v hv
  · right
    intro x hx y hy
    obtain ⟨-, -, hx'⟩ := hslots x hx
    obtain ⟨-, -, hy'⟩ := hslots y hy
    rw [hx', hy']
    exact hsame x hx y hy

end Arena

namespace Program

variable {p p' : Program} {ids : SortedSet Nat}

theorem equateInSequence_cons_cons (p : Program) (a b : Nat) (rest : List Nat) (loc : Option SourceLoc) :
    p.equateInSequence (a :: b :: rest) loc =
      ({ p with store := p.arena.constrainEq p.store a b Reason.link loc } : Program).equateInSequence
        (b :: rest) loc :=
  rfl

theorem linked_equateInSequence (loc : Option SourceLoc) :
    ∀ (ids : List Nat) (p : Program), p.Wf →
      (p.equateInSequence ids loc).arena = p.arena ∧ p.arena.Linked (p.equateInSequence ids loc).store ids
  | [], _, _ => ⟨rfl, .nil⟩
  | [a], _, _ => ⟨rfl, .singleton a⟩
  | a :: b :: rest, p, hw => by
    rw [equateInSequence_cons_cons]
    have hstep : Preserves fun q : Program =>
        { q with store := q.arena.constrainEq q.store a b Reason.link loc } :=
      preserves_store fun q hq => Arena.growsFrom_constrainEq hq.slots (by decide) a b _ (Nat.le_refl _)
    obtain ⟨hw', -⟩ := hstep p hw
    obtain ⟨harena, hrest⟩ := linked_equateInSequence loc (b :: rest) _ hw'
    have hgrow := (preserves_equateInSequence (b :: rest) loc _ hw').2
    refine ⟨harena, List.isChain_cons_cons.2 ⟨fun hne pa pb ha hb => ?_, hrest⟩⟩
    -- the first pair is equated at once, and the rest only adds constraints
    exact (Arena.equates_constrainEq hw.slots (by decide) hne ha hb).mono
      hgrow.store.extends.entries

theorem linked_foldl_equateInSequence {β : Type} (ids : β → List Nat) (loc : β → Option SourceLoc)
    {f : Program → β → Program} (hf : ∀ q x, f q x = q.equateInSequence (ids x) (loc x)) :
    ∀ (l : List β) (p : Program), p.Wf →
      (l.foldl f p).arena = p.arena ∧ ∀ x ∈ l, p.arena.Linked (l.foldl f p).store (ids x)
  | [], _, _ => ⟨rfl, fun _ h => nomatch h⟩
  | x :: xs, p, hw => by
    obtain ⟨ha₁, hl₁⟩ := linked_equateInSequence (loc x) (ids x) p hw
    have hw₁ := (preserves_equateInSequence (ids x) (loc x) p hw).1
    obtain ⟨ha, hl⟩ := linked_foldl_equateInSequence ids loc hf xs (p.equateInSequence (ids x) (loc x)) hw₁
    have hfeq : f = fun q x => q.equateInSequence (ids x) (loc x) := funext fun q => funext (hf q)
    subst hfeq
    have hgrow : Preserves fun q => xs.foldl (fun q x => q.equateInSequence (ids x) (loc x)) q :=
      Preserves.foldl fun y _ => preserves_equateInSequence (ids y) (loc y)
    rw [List.foldl_cons]
    refine ⟨ha.trans ha₁, fun y hy => ?_⟩
    rcases List.mem_cons.1 hy with rfl | hy
    · exact hl₁.mono ((hgrow _ hw₁).2.store.extends.entries)
    · exact ha₁ ▸ hl y hy

/-- A group of entries that linking equates in sequence: those recorded at one key, or the global
variables of one name. -/
def LinkGroup (p : Program) (ids : SortedSet Nat) : Prop :=
  (∃ k, p.entriesAt.find? k = some ids) ∨ ∃ n, p.globals.find? n = some ids

/-- Every group that linking equates is linked in the program's own arena and store. -/
def GroupsLinked (p : Program) : Prop := ∀ ids, p.LinkGroup ids → p.arena.Linked p.store ids.toList

theorem LinkGroup.of_sameTables (h : p'.LinkGroup ids) (ht : SameTables p p') : p.LinkGroup ids := by
  rcases h with ⟨k, hk⟩ | ⟨n, hn⟩
  · exact .inl ⟨k, ht.entriesAt ▸ hk⟩
  · exact .inr ⟨n, ht.globals ▸ hn⟩

theorem LinkGroup.lt_size (h : p.LinkGroup ids) (hw : p.Wf) (hn : p.NamesChained) :
    ∀ id ∈ ids.toList, id < p.arena.size := by
  intro id hid
  rcases h with ⟨k, hk⟩ | ⟨n, hn'⟩
  · obtain ⟨k', hk', -⟩ := SortedMap.mem_of_find? hk
    exact (hw.recorded _ hk' id hid).lt_size
  · obtain ⟨n', hn'', -⟩ := SortedMap.mem_of_find? hn'
    exact (hn.globals _ hn'' id hid).lt_size

theorem GroupsLinked.growsOnly (h : p.GroupsLinked) (hg : GrowsOnly p p') (hw : p.Wf)
    (hn : p.NamesChained) : p'.GroupsLinked := by
  intro ids hids
  have hids' := hids.of_sameTables hg.tables
  exact ((h ids hids').mono hg.entries).extend hg.arena (hids'.lt_size hw hn)

theorem groupsLinked_linkGroups (hw : p.Wf) : (stateOf (linkGroups.run p)).GroupsLinked := by
  -- the entries of each key first, then the global variables of each name
  set keys := p.entriesAt.toList.filter fun e => e.2.size > 1
  obtain ⟨ha₁, hl₁⟩ := linked_foldl_equateInSequence (fun x : DeclKey × SortedSet Nat => x.2.toList)
    (fun x => some x.1.loc) (fun _ _ => rfl) keys p hw
  set p₁ := keys.foldl (fun q x => q.equateInSequence x.2.toList (some x.1.loc)) p
  have hw₁ : p₁.Wf := (Preserves.foldl (l := keys) fun x _ =>
    preserves_equateInSequence x.2.toList (some x.1.loc)) p hw |>.1
  have ht₁ : SameTables p p₁ := sameTables_foldl (fun x _ q => sameTables_equateInSequence _ _ q) p
  set globals := p₁.globals.values.filter fun s => s.size > 1
  obtain ⟨ha₂, hl₂⟩ := linked_foldl_equateInSequence (fun s : SortedSet Nat => s.toList)
    (fun _ => none) (fun _ _ => rfl) globals p₁ hw₁
  have he₂ := (Preserves.foldl (l := globals) fun s _ => preserves_equateInSequence s.toList none) p₁ hw₁
  have ht₂ : SameTables p₁ (globals.foldl (fun q s => q.equateInSequence s.toList none) p₁) :=
    sameTables_foldl (fun x _ q => sameTables_equateInSequence _ _ q) p₁
  show (globals.foldl (fun q s => q.equateInSequence s.toList none) p₁).GroupsLinked
  intro ids hids
  rw [ha₂, ha₁]
  rcases Nat.lt_or_ge 1 ids.size with hsize | hsize
  · rcases hids.of_sameTables (ht₁.trans ht₂) with ⟨k, hk⟩ | ⟨n, hn⟩
    · -- a key recorded with more than one entry
      obtain ⟨k', hk', -⟩ := SortedMap.mem_of_find? hk
      exact (hl₁ (k', ids) (List.mem_filter.2 ⟨hk', by simpa using hsize⟩)).mono
        he₂.2.store.extends.entries
    · -- a name declared by more than one global variable
      obtain ⟨n', hn', -⟩ := SortedMap.mem_of_find? hn
      have hmem : ids ∈ p₁.globals.values := SortedMap.mem_values.2 ⟨n', ht₁.globals ▸ hn'⟩
      exact ha₁ ▸ hl₂ ids (List.mem_filter.2 ⟨hmem, by simpa using hsize⟩)
  · exact Arena.linked_of_length_le_one hsize

theorem groupsLinked_link (hw : p.Wf) (hn : p.NamesChained) : (stateOf (link.run p)).GroupsLinked := by
  have h₂ := groupsLinked_linkGroups hw
  have hg₂ := growsOnly_of_keeps keeps_linkGroups keepsTables_linkGroups hw
  have hw₂ := (keeps_linkGroups p hw).1
  unfold link
  rw [run_bind]
  cases hr : linkGroups.run p with
  | error e q => rw [hr] at h₂; exact h₂
  | ok r q =>
    rw [hr, stateOf_ok] at h₂ hg₂ hw₂
    dsimp only
    rw [run_bind]
    have h₃ := h₂.growsOnly (growsOnly_of_keeps keeps_linkFunctions keepsTables_linkFunctions hw₂) hw₂
      (hn.growsOnly hg₂)
    cases hr' : linkFunctions.run q with
    | error e q' => rw [hr'] at h₃; exact h₃
    | ok r' q' => rw [hr'] at h₃; exact h₃

end Program

namespace Session

open Program

variable {s₀ s₁ s₂ : Session} {o : Options} {facts : List Fact} {st : LinkStats} {sum : SolveSummary}

section Table

variable [UnifyTable]

theorem build_groupsLinked (hr : Reachable (fun _ => True) o s₀) (hb : (build facts).run s₀ = .ok st s₁) :
    s₁.program.GroupsLinked := by
  have hw := hr.wf
  have hn := hr.namesChained
  unfold build at hb
  rw [run_bind, run_onProgram] at hb
  have hwA := (keeps_addFacts facts s₀.program hw).1
  have hnA := hn.addFacts hw facts
  cases hA : (addFacts facts).run s₀.program with
  | error e p => rw [hA] at hb; cases hb
  | ok u p =>
    rw [hA, stateOf_ok] at hwA hnA
    rw [hA] at hb
    dsimp only at hb
    rw [run_bind, run_onProgram] at hb
    have hL := groupsLinked_link hwA hnA
    cases hL' : link.run p with
    | error e q => rw [hL'] at hb; cases hb
    | ok r q =>
      rw [hL'] at hb hL
      cases hb
      exact hL

/-- After a build and then a solve, the members of a group that linking equates, all of them
pointer entries, agree: when they have as many slots they have the same solved chain, and
otherwise every slot of every member is `wild`. -/
theorem linked_pointers_agree (hr : Reachable (fun _ => True) o s₀)
    (hb : (build facts).run s₀ = .ok st s₁) (hs : solve.run s₁ = .ok sum s₂) {ids : SortedSet Nat}
    (hg : s₂.program.LinkGroup ids) (hptr : ∀ x ∈ ids.toList, (s₂.program.arena.pointer? x).isSome) :
    let chain := s₂.program.arena.solvedChain s₂.program.store
    ((∀ x ∈ ids.toList, ∀ y ∈ ids.toList, (chain x).length = (chain y).length) →
        ∀ x ∈ ids.toList, ∀ y ∈ ids.toList, chain x = chain y) ∧
      (¬ (∀ x ∈ ids.toList, ∀ y ∈ ids.toList, (chain x).length = (chain y).length) →
        ∀ x ∈ ids.toList, ∀ q ∈ chain x, q = .wild) := by
  dsimp only
  -- the built session is reachable, so its invariants hold for the solve
  have hstep : Step (fun _ => True) s₀ (stateOf ((build facts).run s₀)) :=
    Step.build s₀ facts fun _ _ _ => trivial
  rw [hb, stateOf_ok] at hstep
  have hr₁ : Reachable (fun _ => True) o s₁ := hr.tail hstep
  have hw₁ := hr₁.wf
  have hlinked := (build_groupsLinked hr hb).growsOnly (solve_growsOnly hw₁ hs) hw₁ hr₁.namesChained
  have hc : s₂.program.store.Closed s₂.program.store.env := by
    rcases solve_run hw₁ with ⟨-, hr'⟩ | ⟨-, r, p, hr', -, hc, -⟩
    · rw [hr'] at hs
      cases hs
    · rw [hr'] at hs
      cases hs
      exact hc
  have hcases := (hlinked ids hg).chain_cases hc hptr
  constructor
  · intro hlen x hx y hy
    rcases hcases with hwild | hsame
    · -- `wild` throughout, over as many slots
      rw [List.eq_replicate_iff.2 ⟨rfl, hwild x hx⟩, List.eq_replicate_iff.2 ⟨rfl, hwild y hy⟩,
        hlen x hx y hy]
    · exact hsame x hx y hy
  · intro hlen
    rcases hcases with hwild | hsame
    · exact hwild
    · exact absurd (fun x hx y hy => congrArg List.length (hsame x hx y hy)) hlen


end Table
/-- Two global pointer variables of one name, in two files, are linked and solved to one chain. -/
theorem linked_pointers_agree_of_globals :
    let facts : List Fact :=
      [.declare { key := ⟨"a.c", 1, 1, "x"⟩, kind := .variable, ty := ⟨"int", [.pointer], none⟩,
                  isGlobal := true },
       .declare { key := ⟨"b.c", 1, 1, "x"⟩, kind := .variable, ty := ⟨"int", [.pointer], none⟩,
                  isGlobal := true }]
    let s₁ := stateOf ((build facts).run (create {}))
    let s₂ := stateOf (solve.run s₁)
    let ids : SortedSet Nat := ⟨[0, 1]⟩
    let chain := s₂.program.arena.solvedChain s₂.program.store
    (build facts).run (create {}) = .ok ⟨0, 1, 0, 0⟩ s₁ ∧ (∃ sum, solve.run s₁ = .ok sum s₂) ∧
      s₂.program.LinkGroup ids ∧ (∀ x ∈ ids.toList, (s₂.program.arena.pointer? x).isSome) ∧
      ((∀ x ∈ ids.toList, ∀ y ∈ ids.toList, (chain x).length = (chain y).length) →
          ∀ x ∈ ids.toList, ∀ y ∈ ids.toList, chain x = chain y) ∧
        (¬ (∀ x ∈ ids.toList, ∀ y ∈ ids.toList, (chain x).length = (chain y).length) →
          ∀ x ∈ ids.toList, ∀ q ∈ chain x, q = .wild) := by
  intro facts s₁ s₂ ids chain
  have hb : (build facts).run (create {}) = .ok ⟨0, 1, 0, 0⟩ s₁ := rfl
  have hstep : Step (fun _ => True) (create {}) (stateOf ((build facts).run (create {}))) :=
    Step.build (create {}) facts fun _ _ _ => trivial
  rw [hb, stateOf_ok] at hstep
  have hr₁ : Reachable (fun _ => True) {} s₁ := Relation.ReflTransGen.single hstep
  have hw₁ := hr₁.wf
  -- the solve is read off its run lemma: the elaborator does not unfold its rounds
  obtain ⟨sum, hs⟩ : ∃ sum, solve.run s₁ = .ok sum s₂ := by
    rcases solve_run hw₁ with ⟨hnb, -⟩ | ⟨-, r, p, hr, -⟩
    · exact absurd hnb (by decide +kernel)
    · refine ⟨r, ?_⟩
      show solve.run s₁ = .ok r (stateOf (solve.run s₁))
      rw [hr, stateOf_ok]
  -- solving keeps the tables, so the group is the one the build recorded
  have hg : s₂.program.LinkGroup ids := by
    refine .inr ⟨"x", ?_⟩
    rw [(solve_growsOnly hw₁ hs).tables.globals]
    rfl
  have hptr : ∀ x ∈ ids.toList, (s₂.program.arena.pointer? x).isSome := by decide +kernel
  exact ⟨hb, ⟨sum, hs⟩, hg, hptr, linked_pointers_agree Relation.ReflTransGen.refl hb hs hg hptr⟩

/-- With a function entry recorded at a key between two pointer entries, the two pointers are each
equated with the function and never with each other: both have one slot, yet one is solved to
`ptr` and the other to `wild`. -/
theorem function_between_pointers_breaks_agreement :
    let key : DeclKey := ⟨"a.c", 1, 1, "p"⟩
    let returnsInt : FunctionShape := ⟨⟨"int", [], none⟩, [], true, false⟩
    let facts : List Fact :=
      [.declare { key, kind := .variable, ty := ⟨"int", [.pointer], some returnsInt⟩ },
       .declare { key, kind := .function, ty := ⟨"", [], some returnsInt⟩ },
       .declare { key, kind := .variable, ty := ⟨"int", [.pointer], none⟩ }]
    (stateOf (solve.run (stateOf ((build facts).run (create {}))))).solution key =
      [[.ptr], [], [.wild]] := by
  decide +kernel

end Session

/-! ## The order of compilation units -/

end CheckedPointers
