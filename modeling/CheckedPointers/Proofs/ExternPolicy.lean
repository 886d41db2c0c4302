import CheckedPointers.Proofs.ForcedDeclarations
/-!
# The extern policy

A function never seen with a body and not trusted by the options is an extern, and linking
applies the extern policy to every function recorded under its name
(`Program.applyExternPolicy`). The outermost slot of each return and parameter alternative is
pinned to its interop annotation when the lattice recognises one (`Program.pinItype`); every
level below it and every embedded signature is forced to `wild`, and so is a parameter of
function type; a return with no recognised annotation is forced to `wild` throughout.

What the policy asks of an entry (`Arena.ExternPolicyAsked`) stays asked while the store grows
and the arena only gains entries, so after a build and a solve every function of an extern name
is solved as the policy asks (`Session.externs_solved`). A pin is an equality with a constant,
which the solver reads as a lower bound (`Relation.Holds`): the pinned slot solves to at least the
annotation's qualifier, and other constraints may raise it further.
-/

namespace CheckedPointers

open ConstraintStore

namespace Arena

variable {ar ar' : Arena} {cs cs' : ConstraintStore} {x id : Nat}

/-- What the extern policy asks of one return or parameter alternative: a pointer's outermost
slot at least the qualifier of a recognised interop annotation, the levels below it and its
embedded signature `wild`, and a function alternative `wild` throughout. -/
structure ExternAsked (ar : Arena) (cs : ConstraintStore) (x : Nat) : Prop where
  pin : ∀ pe q v, ar.pointer? x = some pe → pe.itype.bind Qualifier.ofItype? = some q →
    pe.slots.head? = some v → cs.Asks (.eq (.var v) (.const q))
  inner : ∀ pe, ar.pointer? x = some pe → ∀ v ∈ pe.slots.drop 1, cs.Asks (.geq v .wild)
  embedded : ∀ pe g, ar.pointer? x = some pe → pe.function = some g → ar.WildForced cs g
  function : ∀ fe, ar.function? x = some fe → ar.WildForced cs x

/-- An alternative solved as the extern policy asks: a pointer's outermost slot at least the
qualifier of its recognised interop annotation, the levels below it and its embedded signature
`wild`, and a function alternative `wild` throughout. -/
structure ExternSolved (ar : Arena) (cs : ConstraintStore) (x : Nat) : Prop where
  pin : ∀ pe q v, ar.pointer? x = some pe → pe.itype.bind Qualifier.ofItype? = some q →
    pe.slots.head? = some v → q ≤ cs.assignment v
  inner : ∀ pe, ar.pointer? x = some pe → ∀ v ∈ pe.slots.drop 1, cs.assignment v = .wild
  embedded : ∀ pe g, ar.pointer? x = some pe → pe.function = some g → ar.AllWild cs g
  function : ∀ fe, ar.function? x = some fe → ar.AllWild cs x

/-- What the extern policy asks of a function entry: `ExternAsked` of each return and parameter
alternative, and a return with no recognised annotation `wild` throughout. -/
def ExternPolicyAsked (ar : Arena) (cs : ConstraintStore) (id : Nat) : Prop :=
  ∀ fe, ar.function? id = some fe →
    (∀ r ∈ fe.returns.toList, ar.ExternAsked cs r ∧
      ((∀ pe, ar.pointer? r = some pe → pe.itype.bind Qualifier.ofItype? = none) → ar.WildForced cs r)) ∧
    ∀ x ∈ fe.params.flatMap SortedSet.toList, ar.ExternAsked cs x

theorem ExternAsked.mono (h : ar.ExternAsked cs x) (hp : cs.entries <+: cs'.entries) : ar.ExternAsked cs' x where
  pin pe q v hpe hq hv := (h.pin pe q v hpe hq hv).mono hp
  inner pe hpe v hv := (h.inner pe hpe v hv).mono hp
  embedded pe g hpe hg := (h.embedded pe g hpe hg).mono hp
  function fe hf := (h.function fe hf).mono hp

theorem ExternPolicyAsked.mono (h : ar.ExternPolicyAsked cs id) (hp : cs.entries <+: cs'.entries) :
    ar.ExternPolicyAsked cs' id := fun fe hf =>
  ⟨fun r hr => ⟨((h fe hf).1 r hr).1.mono hp, fun hpin => (((h fe hf).1 r hr).2 hpin).mono hp⟩,
    fun x hx => ((h fe hf).2 x hx).mono hp⟩

theorem Extends.itype_eq (he : ar.Extends ar') (hp : ar.pointer? x = some pe) (hp' : ar'.pointer? x = some pe') :
    pe'.itype = pe.itype := by
  obtain ⟨e', he', hs⟩ := he.shape x _ (pointer?_eq_some.1 hp)
  rw [pointer?_eq_some.1 hp', Option.some.injEq] at he'
  subst he'
  -- the shape keeps everything but the arguments
  simp only [Entry.shape, Entry.pointer.injEq] at hs
  simpa using congrArg PointerEntry.itype hs

theorem ExternAsked.extend (h : ar.ExternAsked cs x) (he : ar.Extends ar') (hrefs : ar.RefsBelow)
    (hlt : x < ar.size) : ar'.ExternAsked cs x where
  pin pe' q v hp' hq hv := by
    obtain ⟨pe, hp, hslots⟩ := he.pointer?_of_lt hlt hp'
    rw [he.itype_eq hp hp'] at hq
    rw [← hslots] at hv
    exact h.pin pe q v hp hq hv
  inner pe' hp' v hv := by
    obtain ⟨pe, hp, hslots⟩ := he.pointer?_of_lt hlt hp'
    rw [← hslots] at hv
    exact h.inner pe hp v hv
  embedded pe' g hp' hg := by
    obtain ⟨pe, hp, -⟩ := he.pointer?_of_lt hlt hp'
    obtain ⟨pe'', hp'', -, hfun⟩ := he.pointer? hp
    rw [hp', Option.some.injEq] at hp''
    subst hp''
    rw [hfun] at hg
    exact (h.embedded pe g hp hg).extend he ((hrefs.pointer hp).1 g hg)
  function fe hf := (h.function fe (he.function?_of_lt hlt hf)).extend he hlt

theorem ExternPolicyAsked.extend (h : ar.ExternPolicyAsked cs id) (he : ar.Extends ar') (hrefs : ar.RefsBelow)
    (hlt : id < ar.size) : ar'.ExternPolicyAsked cs id := by
  intro fe hf'
  have hf := he.function?_of_lt hlt hf'
  obtain ⟨hret, hpar⟩ := h fe hf
  obtain ⟨hrlt, hplt⟩ := hrefs.function hf
  refine ⟨fun r hr => ⟨(hret r hr).1.extend he hrefs (hrlt r hr), fun hpin => ?_⟩, fun x hx => ?_⟩
  · -- an unannotated return was unannotated in the smaller arena too
    refine ((hret r hr).2 fun pe hp => ?_).extend he (hrlt r hr)
    obtain ⟨pe', hp', -⟩ := he.pointer? hp
    rw [← he.itype_eq hp hp']
    exact hpin pe' hp'
  · obtain ⟨s, hs, hxs⟩ := List.mem_flatMap.1 hx
    exact (hpar x hx).extend he hrefs (hplt s hs x hxs)

theorem ExternAsked.solved (h : ar.ExternAsked cs x) (hc : cs.Closed cs.env) : ar.ExternSolved cs x where
  pin pe q v hp hq hv := hc.holds (h.pin pe q v hp hq hv)
  inner pe hp v hv := Qualifier.eq_wild_of_wild_le (hc.holds (h.inner pe hp v hv))
  embedded pe g hp hg := (h.embedded pe g hp hg).allWild hc
  function fe hf := (h.function fe hf).allWild hc

theorem WildForced.externAsked (h : ar.WildForced cs x) (hrefs : ar.RefsBelow)
    (hpin : ∀ pe q v, ar.pointer? x = some pe → pe.itype.bind Qualifier.ofItype? = some q →
      pe.slots.head? = some v → cs.Asks (.eq (.var v) (.const q))) : ar.ExternAsked cs x where
  pin := hpin
  inner pe hp v hv := h v (mem_varsOf_of_pointer hp (List.mem_of_mem_drop hv))
  embedded pe g hp hg w hw :=
    h w (mem_varsOf_of_child hrefs (by simp [children, pointer?_eq_some.1 hp, hg]) hw)
  function _ _ := h

end Arena

namespace Program

variable {p q : Program}

theorem foldl_asks {β : Type} (ar : Arena) {P : β → ConstraintStore → Prop}
    (hP : ∀ x cs cs', P x cs → cs.entries <+: cs'.entries → P x cs') {f : Program → β → Program}
    (hf : ∀ q x, q.arena = ar → (f q x).arena = ar ∧ q.store.entries <+: (f q x).store.entries ∧ P x (f q x).store) :
    ∀ (l : List β) (q : Program), q.arena = ar →
      (l.foldl f q).arena = ar ∧ q.store.entries <+: (l.foldl f q).store.entries ∧ ∀ x ∈ l, P x (l.foldl f q).store
  | [], _, ha => ⟨ha, List.prefix_refl _, fun _ h => nomatch h⟩
  | x :: l, q, ha => by
    obtain ⟨ha₁, hp₁, hx⟩ := hf q x ha
    obtain ⟨ha', hp', hl⟩ := foldl_asks ar hP hf l (f q x) ha₁
    refine ⟨ha', hp₁.trans hp', fun y hy => ?_⟩
    rcases List.mem_cons.1 hy with rfl | hy
    · exact hP _ _ _ hx hp'
    · exact hl y hy

theorem pinItype_spec (p : Program) (x : Nat) :
    (p.pinItype x).2.arena = p.arena ∧ p.store.entries <+: (p.pinItype x).2.store.entries ∧
      (∀ pe q v, p.arena.pointer? x = some pe → pe.itype.bind Qualifier.ofItype? = some q →
        pe.slots.head? = some v → (p.pinItype x).1 = true ∧ (p.pinItype x).2.store.Asks (.eq (.var v) (.const q))) ∧
      ((p.pinItype x).1 = true → ∃ pe q, p.arena.pointer? x = some pe ∧ pe.itype.bind Qualifier.ofItype? = some q) := by
  unfold pinItype
  split
  · next pe hp =>
    split
    · next q v hq hv =>
      have hpre := entries_prefix_add p.store (.eq (.var v) (.const q)) Reason.itype none
      have hasks : (p.store.add (.eq (.var v) (.const q)) Reason.itype none).2.Asks (.eq (.var v) (.const q)) :=
        asks_add (fun _ _ h => by cases h) _ _
      refine ⟨rfl, hpre, fun pe' q' v' hp' hq' hv' => ?_, fun _ => ⟨pe, q, hp, hq⟩⟩
      rw [hp, Option.some.injEq] at hp'
      subst hp'
      rw [hq, Option.some.injEq] at hq'
      rw [hv, Option.some.injEq] at hv'
      subst hq' hv'
      exact ⟨rfl, hasks⟩
    · next hnone =>
      refine ⟨rfl, List.prefix_refl _, fun pe' q' v' hp' hq' hv' => ?_, fun h => nomatch h⟩
      rw [hp, Option.some.injEq] at hp'
      subst hp'
      exact absurd hv' (hnone q' v' hq')
  · next hp =>
    refine ⟨rfl, List.prefix_refl _, fun pe' _ _ hp' => ?_, fun h => nomatch h⟩
    rw [hp] at hp'
    cases hp'

theorem forceInnerLevels_spec (p : Program) (x : Nat) (reason : String) :
    (p.forceInnerLevels x reason).arena = p.arena ∧
      p.store.entries <+: (p.forceInnerLevels x reason).store.entries ∧
      (∀ pe, p.arena.pointer? x = some pe →
        (∀ v ∈ pe.slots.drop 1, (p.forceInnerLevels x reason).store.Asks (.geq v .wild)) ∧
          ∀ g, pe.function = some g → p.arena.WildForced (p.forceInnerLevels x reason).store g) ∧
      (∀ fe, p.arena.function? x = some fe → p.arena.WildForced (p.forceInnerLevels x reason).store x) := by
  unfold forceInnerLevels
  split
  · next pe hget =>
    have hp : p.arena.pointer? x = some pe := Arena.pointer?_eq_some.2 hget
    have hnf : ∀ fe, p.arena.function? x ≠ some fe := fun fe hf => by
      rw [Arena.function?_eq_some.1 hf] at hget
      cases hget
    -- the levels below the outermost, then the embedded signature
    obtain ⟨ha₁, hp₁, hinner⟩ := foldl_asks p.arena (P := fun v cs => cs.Asks (.geq v .wild))
      (fun _ _ _ h hp => h.mono hp) (f := fun (q : Program) v => { q with store := (q.store.addWild v reason none).2 })
      (fun q v hq => ⟨hq, entries_prefix_add q.store (.geq v .wild) reason none,
        (asks_add (fun _ _ h => by cases h) _ _ : (q.store.add (.geq v .wild) reason none).2.Asks _)⟩)
      (pe.slots.drop 1) p rfl
    set q := (pe.slots.drop 1).foldl (fun (q : Program) v => { q with store := (q.store.addWild v reason none).2 }) p
    split
    · next g hg =>
      obtain ⟨hp₂, hforced⟩ := Arena.asks_constrainToWild q.arena q.store g reason none
      refine ⟨ha₁, hp₁.trans hp₂, fun pe' hp' => ?_, fun fe hf => absurd hf (hnf fe)⟩
      rw [hp, Option.some.injEq] at hp'
      subst hp'
      refine ⟨fun v hv => (hinner v hv).mono hp₂, fun g' hg' => ?_⟩
      rw [hg, Option.some.injEq] at hg'
      subst hg'
      rw [← ha₁]
      exact hforced
    · next hg =>
      refine ⟨ha₁, hp₁, fun pe' hp' => ?_, fun fe hf => absurd hf (hnf fe)⟩
      rw [hp, Option.some.injEq] at hp'
      subst hp'
      exact ⟨hinner, fun g hg' => by rw [hg] at hg'; cases hg'⟩
  · next fe hget =>
    have hnp : ∀ pe, p.arena.pointer? x ≠ some pe := fun pe hp => by
      rw [Arena.pointer?_eq_some.1 hp] at hget
      cases hget
    obtain ⟨hp₁, hforced⟩ := Arena.asks_constrainToWild p.arena p.store x reason none
    exact ⟨rfl, hp₁, fun pe hp => absurd hp (hnp pe), fun _ _ => hforced⟩
  · next hget =>
    refine ⟨rfl, List.prefix_refl _, fun pe hp => ?_, fun fe hf => ?_⟩
    · rw [Arena.pointer?_eq_some.1 hp] at hget
      cases hget
    · rw [Arena.function?_eq_some.1 hf] at hget
      cases hget

theorem externParam_spec (q : Program) (x : Nat) :
    let q' := (q.pinItype x).2.forceInnerLevels x Reason.externParam
    q'.arena = q.arena ∧ q.store.entries <+: q'.store.entries ∧ q.arena.ExternAsked q'.store x := by
  intro q'
  obtain ⟨ha, hp, hpin, -⟩ := pinItype_spec q x
  obtain ⟨ha', hp', hforced, hfun⟩ := forceInnerLevels_spec (q.pinItype x).2 x Reason.externParam
  rw [ha] at ha' hforced hfun
  exact ⟨ha', hp.trans hp', ⟨fun pe v w hpe hv hw => ((hpin pe v w hpe hv hw).2).mono hp',
    fun pe hpe => (hforced pe hpe).1, fun pe g hpe hg => (hforced pe hpe).2 g hg, hfun⟩⟩

theorem externReturn_spec (q : Program) (r : Nat) (hrefs : q.arena.RefsBelow) :
    let q' := if (q.pinItype r).1 then (q.pinItype r).2.forceInnerLevels r Reason.externReturn
      else (q.pinItype r).2.forceWild r Reason.externReturn none
    q'.arena = q.arena ∧ q.store.entries <+: q'.store.entries ∧ q.arena.ExternAsked q'.store r ∧
      ((∀ pe, q.arena.pointer? r = some pe → pe.itype.bind Qualifier.ofItype? = none) →
        q.arena.WildForced q'.store r) := by
  intro q'
  obtain ⟨ha, hp, hpin, hpinned⟩ := pinItype_spec q r
  by_cases hb : (q.pinItype r).1 = true
  · -- pinned: forced below the pin
    have hq' : q' = (q.pinItype r).2.forceInnerLevels r Reason.externReturn := if_pos hb
    obtain ⟨ha', hp', hforced, hfun⟩ := forceInnerLevels_spec (q.pinItype r).2 r Reason.externReturn
    rw [← hq', ha] at ha' hforced hfun
    rw [← hq'] at hp'
    refine ⟨ha', hp.trans hp', ⟨fun pe v w hpe hv hw => ((hpin pe v w hpe hv hw).2).mono hp',
      fun pe hpe => (hforced pe hpe).1, fun pe g hpe hg => (hforced pe hpe).2 g hg, hfun⟩, fun hnone => ?_⟩
    obtain ⟨pe, v, hpe, hv⟩ := hpinned hb
    rw [hnone pe hpe] at hv
    cases hv
  · -- no pin: the return is forced whole
    have hq' : q' = (q.pinItype r).2.forceWild r Reason.externReturn none := if_neg hb
    obtain ⟨hp', hforced⟩ := Arena.asks_constrainToWild (q.pinItype r).2.arena (q.pinItype r).2.store r
      Reason.externReturn none
    have hforced' : q.arena.WildForced q'.store r := by
      rw [hq', ← ha]
      exact hforced
    refine ⟨by rw [hq']; exact ha, hp.trans (hq' ▸ hp'), hforced'.externAsked hrefs fun pe v w hpe hv hw => ?_,
      fun _ => hforced'⟩
    exact absurd (hpin pe v w hpe hv hw).1 hb

theorem applyExternPolicy_spec (p : Program) (id : Nat) (hrefs : p.arena.RefsBelow) :
    (p.applyExternPolicy id).arena = p.arena ∧ p.store.entries <+: (p.applyExternPolicy id).store.entries ∧
      p.arena.ExternPolicyAsked (p.applyExternPolicy id).store id := by
  unfold applyExternPolicy
  split
  · next hnone =>
    refine ⟨rfl, List.prefix_refl _, fun fe hf => ?_⟩
    rw [hnone] at hf
    cases hf
  · next f hf =>
    -- the returns first, then the parameters, each step asking its alternative
    obtain ⟨ha₁, hp₁, hret⟩ := foldl_asks p.arena
      (P := fun r cs => p.arena.ExternAsked cs r ∧
        ((∀ pe, p.arena.pointer? r = some pe → pe.itype.bind Qualifier.ofItype? = none) → p.arena.WildForced cs r))
      (fun _ _ _ h hp => ⟨h.1.mono hp, fun hpin => (h.2 hpin).mono hp⟩)
      (f := fun q r => if (q.pinItype r).1 then (q.pinItype r).2.forceInnerLevels r Reason.externReturn
        else (q.pinItype r).2.forceWild r Reason.externReturn none)
      (fun q r hq => by
        obtain ⟨ha, hp, hasked, hwild⟩ := externReturn_spec q r (hq ▸ hrefs)
        rw [hq] at ha hasked hwild
        exact ⟨ha, hp, hasked, hwild⟩) f.returns.toList p rfl
    obtain ⟨ha₂, hp₂, hpar⟩ := foldl_asks p.arena (P := fun x cs => p.arena.ExternAsked cs x)
      (fun _ _ _ h hp => h.mono hp) (f := fun q x => (q.pinItype x).2.forceInnerLevels x Reason.externParam)
      (fun q x hq => by
        obtain ⟨ha, hp, hasked⟩ := externParam_spec q x
        rw [hq] at ha hasked
        exact ⟨ha, hp, hasked⟩) (f.params.flatMap SortedSet.toList) _ ha₁
    refine ⟨ha₂, hp₁.trans hp₂, fun fe hfe => ?_⟩
    rw [hf, Option.some.injEq] at hfe
    subst hfe
    exact ⟨fun r hr => ⟨((hret r hr).1).mono hp₂, fun hpin => ((hret r hr).2 hpin).mono hp₂⟩, hpar⟩

theorem forIn_externsAsked {g : String → PUnit → ProgramM (ForInStep PUnit)}
    (hg : ∀ x q r q', (g x PUnit.unit).run q = .ok r q' → r = .yield PUnit.unit ∧
      q' = ((q.functions.values.filter fun f => f.key.name == x).map FunctionDecl.entry).foldl applyExternPolicy q) :
    ∀ (l : List String) (q q' : Program), q'.arena.RefsBelow → (forIn l PUnit.unit g).run q = .ok PUnit.unit q' →
      q'.arena = q.arena ∧ SameTables q q' ∧ q.store.entries <+: q'.store.entries ∧
        ∀ x ∈ l, ∀ f ∈ q.functions.values, f.key.name = x → q.arena.ExternPolicyAsked q'.store f.entry := by
  intro l
  induction l with
  | nil =>
    intro q q' _ h
    cases h
    exact ⟨rfl, SameTables.refl q, List.prefix_refl _, fun _ h => nomatch h⟩
  | cons x l ih =>
    intro q q' hrefs h
    rw [List.forIn_cons] at h
    obtain ⟨r, q₁, h₁, h₂⟩ := run_bind_ok h
    obtain ⟨rfl, rfl⟩ := hg x q r q₁ h₁
    set ids := (q.functions.values.filter fun f => f.key.name == x).map FunctionDecl.entry
    have ha₁ : (ids.foldl applyExternPolicy q).arena = q.arena := arena_foldl (fun id q => arena_applyExternPolicy q id) q
    have ht₁ : SameTables q (ids.foldl applyExternPolicy q) :=
      sameTables_foldl (fun id _ q => sameTables_applyExternPolicy q id) q
    obtain ⟨ha, ht, hp, hl⟩ := ih _ q' hrefs h₂
    have hrefs₁ : q.arena.RefsBelow := by rw [← ha₁, ← ha]; exact hrefs
    -- the functions of `x` first, each asked the policy in the arena the walk leaves alone
    obtain ⟨-, hp₁, hasked⟩ := foldl_asks q.arena (P := fun id cs => q.arena.ExternPolicyAsked cs id)
      (fun _ _ _ h hp => h.mono hp) (f := applyExternPolicy) (fun q₀ id hq₀ => by
        obtain ⟨h1, h2, h3⟩ := applyExternPolicy_spec q₀ id (hq₀ ▸ hrefs₁)
        rw [hq₀] at h1 h3
        exact ⟨h1, h2, h3⟩) ids q rfl
    refine ⟨ha.trans ha₁, ht₁.trans ht, hp₁.trans hp, fun y hy f hf hname => ?_⟩
    rcases List.mem_cons.1 hy with rfl | hy
    · exact (hasked f.entry (List.mem_map.2 ⟨f, List.mem_filter.2 ⟨hf, by simp [hname]⟩, rfl⟩)).mono hp
    · rw [← ha₁]
      exact hl y hy f (ht₁.functions ▸ hf) hname

/-- A name linking treats as extern: recorded with no body seen, and not trusted by the options. -/
def ExternName (p : Program) (n : String) : Prop :=
  (n, false) ∈ p.bodies.toList ∧ p.options.isSafeExtern n = false

instance (p : Program) (n : String) : Decidable (p.ExternName n) :=
  inferInstanceAs (Decidable ((n, false) ∈ p.bodies.toList ∧ p.options.isSafeExtern n = false))

theorem ExternName.of_sameTables {n : String} (h : q.ExternName n) (ht : SameTables p q) : p.ExternName n :=
  ⟨ht.bodies ▸ h.1, ht.options ▸ h.2⟩

theorem mem_externs_iff {n : String} :
    n ∈ (p.bodies.toList.filter fun x => !x.2 && !p.options.isSafeExtern x.1).map Prod.fst ↔ p.ExternName n := by
  constructor
  · intro h
    obtain ⟨⟨m, b⟩, hm, rfl⟩ := List.mem_map.1 h
    obtain ⟨hm, hb⟩ := List.mem_filter.1 hm
    simp only [Bool.and_eq_true, Bool.not_eq_true'] at hb
    obtain ⟨rfl, hs⟩ := hb
    exact ⟨hm, hs⟩
  · rintro ⟨hm, hs⟩
    exact List.mem_map.2 ⟨(n, false), List.mem_filter.2 ⟨hm, by simp [hs]⟩, rfl⟩

theorem externPolicyAsked_of_walk {g : String → PUnit → ProgramM (ForInStep PUnit)}
    (hg : ∀ x q r q', (g x PUnit.unit).run q = .ok r q' → r = .yield PUnit.unit ∧
      q' = ((q.functions.values.filter fun f => f.key.name == x).map FunctionDecl.entry).foldl applyExternPolicy q)
    {q₀ : Program} {u : PUnit} (hrefs : q.arena.RefsBelow)
    (h : (forIn ((q₀.bodies.toList.filter fun x => !x.2 && !q₀.options.isSafeExtern x.1).map Prod.fst)
      PUnit.unit g).run q₀ = .ok u q) :
    ∀ f ∈ q.functions.values, q.ExternName f.key.name → q.arena.ExternPolicyAsked q.store f.entry := by
  obtain ⟨ha, ht, -, hasked⟩ := forIn_externsAsked hg _ q₀ q hrefs h
  intro f hf hn
  rw [ha]
  exact hasked f.key.name (mem_externs_iff.2 (hn.of_sameTables ht)) f (ht.functions ▸ hf) rfl

theorem externPolicyAsked_linkFunctions {r : Nat × Nat} (hp : p.RefsOk) (h : linkFunctions.run p = .ok r q) :
    ∀ f ∈ q.functions.values, q.ExternName f.key.name → q.arena.ExternPolicyAsked q.store f.entry := by
  have hq := ((keepsRefs_linkFunctions (n := 0)).run_ok hp (Nat.zero_le _) h).1
  unfold linkFunctions at h
  rw [run_bind, run_get] at h
  dsimp only at h
  split at h
  on_goal 1 =>
    -- the declarations of each global function are equated first
    rw [run_bind, run_get] at h
    dsimp only at h
    obtain ⟨B', q₁, -, h⟩ := run_bind_ok h
    obtain ⟨k, q₂, -, h⟩ := run_bind_ok h
  all_goals
    rw [run_bind, run_get] at h
    dsimp only at h
    obtain ⟨u, q₃, h₃, h⟩ := run_bind_ok h
    rw [run_pure] at h
    cases h
    refine externPolicyAsked_of_walk (fun x q r q' hb => ?_) hq.refs h₃
    -- the walk's step applies the policy to the functions of one name
    rw [run_bind, run_get] at hb
    dsimp only at hb
    rw [run_bind, run_modify] at hb
    dsimp only at hb
    rw [run_pure] at hb
    cases hb
    exact ⟨rfl, rfl⟩

end Program

namespace Session

open Program

variable {s₀ s₁ s₂ : Session} {facts : List Fact} {st : LinkStats} {sum : SolveSummary}

theorem build_ok_cases (hb : (build facts).run s₀ = .ok st s₁) :
    ∃ u p₁ r₁ p₂ r₂, (addFacts facts).run s₀.program = .ok u p₁ ∧ linkGroups.run p₁ = .ok r₁ p₂ ∧
      linkFunctions.run p₂ = .ok r₂ s₁.program := by
  unfold build at hb
  rw [run_bind, run_onProgram] at hb
  cases hA : (addFacts facts).run s₀.program with
  | error e p =>
    rw [hA] at hb
    cases hb
  | ok u p₁ =>
    rw [hA] at hb
    dsimp only at hb
    rw [run_bind, run_onProgram] at hb
    cases hL : link.run p₁ with
    | error e q =>
      rw [hL] at hb
      cases hb
    | ok r q =>
      rw [hL] at hb
      cases hb
      unfold link at hL
      obtain ⟨r₁, p₂, h₁, hL⟩ := run_bind_ok hL
      dsimp only at hL
      obtain ⟨r₂, q', h₂, hL⟩ := run_bind_ok hL
      rw [run_pure] at hL
      cases hL
      exact ⟨u, p₁, r₁, p₂, r₂, rfl, h₁, h₂⟩

theorem build_ok_refs (hp : s₀.program.RefsOk) (hb : (build facts).run s₀ = .ok st s₁) :
    ∃ u p₁ r₁ p₂ r₂, (addFacts facts).run s₀.program = .ok u p₁ ∧ linkGroups.run p₁ = .ok r₁ p₂ ∧
      linkFunctions.run p₂ = .ok r₂ s₁.program ∧ p₁.RefsOk ∧ p₂.RefsOk ∧ s₁.program.RefsOk := by
  obtain ⟨u, p₁, r₁, p₂, r₂, hA, h₁, h₂⟩ := build_ok_cases hb
  have hp₁ := ((keepsRefs_addFacts (n := 0) facts).run_ok hp (Nat.zero_le _) hA).1
  have hp₂ := ((keepsRefs_linkGroups (n := 0)).run_ok hp₁ (Nat.zero_le _) h₁).1
  have hq₁ := ((keepsRefs_linkFunctions (n := 0)).run_ok hp₂ (Nat.zero_le _) h₂).1
  exact ⟨u, p₁, r₁, p₂, r₂, hA, h₁, h₂, hp₁, hp₂, hq₁⟩

section Table

variable [UnifyTable]

/-- After a build and a solve, every function recorded under a name never seen with a body and
not trusted is solved as the extern policy asks: each return and parameter alternative as
`ExternSolved` says, and a return with no recognised annotation `wild` throughout. -/
theorem externs_solved (hp : s₀.program.RefsOk) (hb : (build facts).run s₀ = .ok st s₁)
    (hs : solve.run s₁ = .ok sum s₂) :
    ∀ f ∈ s₂.program.functions.values, s₂.program.ExternName f.key.name →
      ∀ fe, s₂.program.arena.function? f.entry = some fe →
        (∀ r ∈ fe.returns.toList, s₂.program.arena.ExternSolved s₂.program.store r ∧
          ((∀ pe, s₂.program.arena.pointer? r = some pe → pe.itype.bind Qualifier.ofItype? = none) →
            s₂.program.arena.AllWild s₂.program.store r)) ∧
        ∀ x ∈ fe.params.flatMap SortedSet.toList, s₂.program.arena.ExternSolved s₂.program.store x := by
  obtain ⟨u, p₁, r₁, p₂, r₂, -, -, h₂, -, hp₂, hq₁⟩ := build_ok_refs hp hb
  have hasked := externPolicyAsked_linkFunctions hp₂ h₂
  -- solving keeps the tables, grows the arena and the store, and leaves it closed
  have hg := solve_growsOnly hq₁.wf hs
  have hc := solve_closed hq₁.wf hs
  intro f hf hn fe hfe
  rw [hg.tables.functions] at hf
  have hlt : f.entry < s₁.program.arena.size := by
    obtain ⟨k, hk⟩ := SortedMap.mem_values.1 hf
    exact (hq₁.names.functions (k, f) hk).lt_size
  have h₂' := ((hasked f hf (hn.of_sameTables hg.tables)).extend hg.arena hq₁.refs hlt).mono hg.entries fe hfe
  exact ⟨fun r hr => ⟨(h₂'.1 r hr).1.solved hc, fun hpin => ((h₂'.1 r hr).2 hpin).allWild hc⟩,
    fun x hx => (h₂'.2 x hx).solved hc⟩

end Table

end Session

end CheckedPointers
