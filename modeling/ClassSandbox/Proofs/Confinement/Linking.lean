import ClassSandbox.Proofs.Confinement.Mediation
import ClassSandbox.Proofs.Descriptor

/-!
# Linking

Two classes that are confined for one sandbox still refer to each other. In strict mode all runs that succeed
turn a name into the same one, whether or not the policy applied (`accord`), so references to a class or to one
of its members follow the declaration (`confine_links`).
-/

namespace ClassSandbox

open ConstantPool Confinement

/-! ## Runs that succeed -/

/-- Whenever both succeed, it is with the same value. -/
def accord : Simulation Resolution Resolution where
  Rel x y := ∀ a b, MayGive x a → MayGive y b → a = b
  pure _ := by
    intro a b ha hb
    exact (mayGive_pure ha).symm.trans (mayGive_pure hb)
  bind := by
    intro α β x y f g hxy hfg a b ha hb
    obtain ⟨c, hx, hf⟩ := mayGive_bind ha
    obtain ⟨c', hy, hg⟩ := mayGive_bind hb
    obtain rfl : c = c' := hxy c c' hx hy
    exact hfg c a b hf hg

namespace Resolver

variable {r r' : Resolver}

/-- A resolver that differs from a strict one at most in whether the policy applies and diagnostics are kept. -/
structure SameRules (r r' : Resolver) : Prop where
  strict : r.settings.mode = .strict
  settings : r'.settings = r.settings
  policy : r'.policy = r.policy
  sandbox : r'.sandbox = r.sandbox

/-- In strict mode, a name that is accepted at all turns into the same one as for trusted classes. -/
theorem eq_trusting_of_mayGive (hstrict : r.settings.mode = .strict) {name resolved : String}
    (h : MayGive (r.resolveClass name) resolved) : resolved = (r.trusting.verdict name).resolved := by
  have hverdict := verdict_of_mayGive hstrict h
  rw [verdict_trusting (by rw [hverdict]), hverdict]

theorem accord_matches (h : r.SameRules r') : accord.Matches r r' where
  resolveClass name := by
    intro a b ha hb
    have hnames : r.trusting.SameNames r'.trusting := by
      unfold SameNames trusting
      rw [h.settings, h.sandbox]
    rw [eq_trusting_of_mayGive h.strict ha, eq_trusting_of_mayGive (h.settings ▸ h.strict) hb,
      verdict_eq_of_sameNames hnames h.policy rfl]
  refuse _ := fun _ _ ha _ => absurd ha (not_mayGive_refuse r h.strict)
  unrecognized _ := fun _ _ _ _ => rfl
  malformedName _ := by
    rintro _ _ ⟨_, _, ha⟩
    cases ha

/-- What two resolvers make of one text is the same, if both accept it. -/
theorem resolves_unique {operation : Resolver → String → Resolution String} {old new new' : String}
    (hmatch : accord.Rel (operation r old) (operation r' old)) (h : r.Resolves operation old new)
    (h' : r'.Resolves operation old new') : new = new' :=
  hmatch new new' (mayGive_of_resolves h) (mayGive_of_resolves h')

end Resolver

/-! ## References -/

/-- A constant refers to a member, in the given way, by these names. -/
def ConstantPool.MemberRefAt (pool : ConstantPool) (build : ConstantIndex → ConstantIndex → Constant)
    (index : ConstantIndex) (owner name descriptor : String) : Prop :=
  ∃ ownerIndex member, pool.constantAt index = .ok (build ownerIndex member) ∧
    pool.classNameAt ownerIndex = .ok owner ∧ pool.PairAt member name descriptor

/-- A field or a method has this name and this descriptor. -/
def ConstantPool.Declares (pool : ConstantPool) {kind : Declared} (member : Member kind)
    (name descriptor : String) : Prop :=
  pool.textAt member.name = .ok name ∧ pool.textAt member.descriptor = .ok descriptor

/-- What one class says of another one and of its members, it also says once both are confined. -/
structure Links (target target' source source' : ClassFile) : Prop where
  fields : ∀ index (position : Nat) (field : Field) owner name descriptor type,
    target.thisName = .ok owner → target.fields[position]? = some field →
    target.pool.Declares field name descriptor → parseAll FieldType.read descriptor = .ok type →
    source.pool.MemberRefAt .fieldRef index owner name descriptor →
      ∃ field' owner' descriptor', target'.thisName = .ok owner' ∧ target'.fields[position]? = some field' ∧
        target'.pool.Declares field' name descriptor' ∧
        source'.pool.MemberRefAt .fieldRef index owner' name descriptor'
  methods : ∀ index (position : Nat) (method : Method) owner name descriptor parsed inInterface,
    target.thisName = .ok owner → target.methods[position]? = some method →
    target.pool.Declares method name descriptor → parseAll MethodDescriptor.read descriptor = .ok parsed →
    source.pool.MemberRefAt (.methodRef · · inInterface) index owner name descriptor →
      ∃ method' owner' descriptor', target'.thisName = .ok owner' ∧ target'.methods[position]? = some method' ∧
        target'.pool.Declares method' name descriptor' ∧
        source'.pool.MemberRefAt (.methodRef · · inInterface) index owner' name descriptor'
  superClass : ∀ name, target.thisName = .ok name → source.superName = .ok (some name) →
    ∃ name', target'.thisName = .ok name' ∧ source'.superName = .ok (some name')
  interfaces : ∀ (position : Nat) index name, target.thisName = .ok name →
    source.interfaces[position]? = some index → source.pool.classNameAt index = .ok name →
      ∃ name', target'.thisName = .ok name' ∧ source'.interfaces[position]? = some index ∧
        source'.pool.classNameAt index = .ok name'

theorem exists_getElem?_of_forall₂ {α β : Type} {R : α → β → Prop} {items : List α} {results : List β}
    (h : List.Forall₂ R items results) {position : Nat} {a : α} (ha : items[position]? = some a) :
    ∃ b, results[position]? = some b ∧ R a b := by
  induction h generalizing position with
  | nil => cases ha
  | cons hhead _ ih =>
    cases position with
    | zero =>
      cases ha
      exact ⟨_, rfl, hhead⟩
    | succ position => exact ih ha

section

variable {r r' : Resolver} {target target' source source' : ClassFile}

/-- A class has the same name in both classes. -/
theorem className_follows (hrules : r.SameRules r') (htarget : ClassMediated r target target')
    (hsource : ClassMediated r' source source') {index : ConstantIndex} {name : String}
    (hthis : target.thisName = .ok name) (hname : source.pool.classNameAt index = .ok name) :
    ∃ name', target'.thisName = .ok name' ∧ source'.pool.classNameAt index = .ok name' := by
  obtain ⟨new, hnew, hthis'⟩ := htarget.classNameAt hthis
  obtain ⟨new', hnew', hname'⟩ := hsource.classNameAt hname
  obtain rfl : new = new' :=
    Resolver.resolves_unique ((Resolver.accord_matches hrules).resolveClass name) hnew hnew'
  refine ⟨new, ?_, hname'⟩
  rw [ClassFile.thisName, htarget.thisClass]
  exact hthis'

/-- A reference to a member follows its declaration, if the descriptor has the form that the declaration asks
for. -/
theorem memberRef_follows (hrules : r.SameRules r') (htarget : ClassMediated r target target')
    (hsource : ClassMediated r' source source') {operation : Resolver → String → Resolution String}
    {kind : Declared} {member member' : Member kind}
    (hmember : MemberMediated r operation target.pool target'.pool member member')
    {build : ConstantIndex → ConstantIndex → Constant}
    (hbuild : ∀ {original confined : ConstantPool} {owner pair : ConstantIndex} {constant : Constant},
      Mediated r' original confined (build owner pair) constant → constant = build owner pair)
    {index : ConstantIndex} {owner name descriptor : String}
    (hoperation : (if descriptor.toList.head? = some '(' then Resolver.resolveMethodDescriptor
      else Resolver.resolveDescriptor) = operation)
    (hthis : target.thisName = .ok owner) (hdeclares : target.pool.Declares member name descriptor)
    (href : source.pool.MemberRefAt build index owner name descriptor) :
    ∃ owner' descriptor', target'.thisName = .ok owner' ∧ target'.pool.Declares member' name descriptor' ∧
      source'.pool.MemberRefAt build index owner' name descriptor' := by
  obtain ⟨ownerIndex, pair, hc, howner, hpair⟩ := href
  obtain ⟨owner', hthis', howner'⟩ := className_follows hrules htarget hsource hthis howner
  obtain ⟨new, hnew, hdescriptor'⟩ := hmember.descriptor descriptor hdeclares.2
  obtain ⟨new', hnew', hpair'⟩ := hsource.pairAt hpair
  have hany := resolves_ite_of_resolvesAny hnew'
  rw [hoperation] at hany
  have hmatch : accord.Rel (operation r descriptor) (operation r' descriptor) := by
    rw [← hoperation]
    split
    · exact (Resolver.accord_matches hrules).resolveMethodDescriptor descriptor
    · exact (Resolver.accord_matches hrules).resolveDescriptor descriptor
  obtain rfl : new = new' := Resolver.resolves_unique hmatch hnew hany
  obtain ⟨constant', hat, hmediated⟩ := hsource.constants index _ hc
  obtain rfl := hbuild hmediated
  refine ⟨owner', new, hthis', ⟨?_, hdescriptor'⟩, ownerIndex, pair, hat, howner', hpair'⟩
  rw [hmember.name]
  exact htarget.texts _ _ hdeclares.1

/-- Two classes that were read from bytes stay linked, whether or not the policy applies to either of them. -/
theorem confine_links {bytes bytes' : Bytes} {before after before' after' : Findings} (hrules : r.SameRules r')
    (hparse : ClassFile.parse bytes = .ok target) (hparse' : ClassFile.parse bytes' = .ok source)
    (hrun : outcome (r.confine target) before = (.ok target', after))
    (hrun' : outcome (r'.confine source) before' = (.ok source', after')) :
    Links target target' source source' := by
  have htarget := classMediated_of_confine (ClassFile.sound_of_parse hparse) hrun
  have hsource := classMediated_of_confine (ClassFile.sound_of_parse hparse') hrun'
  constructor
  · intro index position field owner name descriptor type hthis hfield hdeclares htype href
    obtain ⟨field', hfield', hmediated⟩ := exists_getElem?_of_forall₂ htarget.fields hfield
    obtain ⟨owner', descriptor', hthis', hdeclares', href'⟩ := memberRef_follows hrules htarget hsource
      hmediated (fun h => by cases h; rfl) (if_neg (FieldType.head?_ne_of_parseAll htype)) hthis hdeclares href
    exact ⟨field', owner', descriptor', hthis', hfield', hdeclares', href'⟩
  · intro index position method owner name descriptor parsed inInterface hthis hmethod hdeclares hparsed href
    obtain ⟨method', hmethod', hmediated⟩ := exists_getElem?_of_forall₂ htarget.methods hmethod
    obtain ⟨owner', descriptor', hthis', hdeclares', href'⟩ := memberRef_follows hrules htarget hsource
      hmediated (fun h => by cases h; rfl) (if_pos (MethodDescriptor.head?_of_parseAll hparsed)) hthis
      hdeclares href
    exact ⟨method', owner', descriptor', hthis', hmethod', hdeclares', href'⟩
  · intro name hthis hsuper
    unfold ClassFile.superName at hsuper ⊢
    cases hindex : source.superClass with
    | none =>
      rw [hindex] at hsuper
      cases hsuper
    | some index =>
      rw [hindex, Option.mapM_some, ← bind_pure_comp] at hsuper
      obtain ⟨found, hname, hsuper⟩ := except_bind_eq_ok_iff.1 hsuper
      cases hsuper
      obtain ⟨name', hthis', hname'⟩ := className_follows hrules htarget hsource hthis hname
      refine ⟨name', hthis', ?_⟩
      rw [hsource.superClass, hindex, Option.mapM_some, hname']
      rfl
  · intro position index name hthis hindex hname
    obtain ⟨name', hthis', hname'⟩ := className_follows hrules htarget hsource hthis hname
    exact ⟨name', hthis', by rw [hsource.interfaces, hindex], hname'⟩

end

/-- The trusted class and the one that the policy applies to are the same here, and link to each other. -/
theorem confine_links_example :
    Resolver.SameRules (Resolver.exampleResolver false) (Resolver.exampleResolver true) ∧
    ClassFile.parse exampleBytes = .ok exampleClass ∧
    outcome ((Resolver.exampleResolver false).confine exampleClass) .none = (.ok confinedClass, .none) ∧
    outcome ((Resolver.exampleResolver true).confine exampleClass) .none = (.ok confinedClass, .none) ∧
    Links exampleClass confinedClass exampleClass confinedClass := by
  have hrules : Resolver.SameRules (Resolver.exampleResolver false) (Resolver.exampleResolver true) :=
    ⟨rfl, rfl, rfl, rfl⟩
  exact ⟨hrules, parse_exampleBytes, outcome_confine_example false, outcome_confine_example true,
    confine_links hrules parse_exampleBytes parse_exampleBytes (outcome_confine_example false)
      (outcome_confine_example true)⟩

end ClassSandbox
