import Metamodel.Entity.Ancestry
import Metamodel.Proofs.Keyed

/-!
# The supertype walk

`IsChain s met d names` says that `names` are the chain of first supertypes from `d` on, where the
names in `met` end it. The walk computes this chain (`isChain_chain`) and there is no other
(`IsChain.unique`). It reads nothing of a declaration but its name, its supertypes and whether it
is an interface (`Heading`), so sources with the same headings give the same ancestry (`of_perm`).
-/

namespace Metamodel

/-! ## Chains -/

/-- The declaration that the first supertype of a declaration refers to, with its name. A missing,
unresolved, unknown or unnamed supertype gives none. -/
def DeclarationSource.parent? (s : DeclarationSource) (d : Declaration) :
    Option (String × Declaration) := do
  let ref ← d.supers.head?
  let next ← s.declarationOf? ref
  let name ← next.knownName?
  return (name, next)

namespace Ancestry

/-- The names of the chain of first supertypes of a declaration, which ends where there is no
parent or where the parent's name was met before. -/
inductive IsChain (s : DeclarationSource) : List String → Declaration → List String → Prop
  | stop {met : List String} {d : Declaration}
      (h : ∀ name next, s.parent? d = some (name, next) → name ∈ met) : IsChain s met d []
  | step {met names : List String} {d next : Declaration} {name : String}
      (h : s.parent? d = some (name, next)) (hnew : name ∉ met)
      (rest : IsChain s (name :: met) next names) : IsChain s met d (name :: names)

theorem IsChain.unique {s : DeclarationSource} {met names names' : List String} {d : Declaration}
    (h : IsChain s met d names) (h' : IsChain s met d names') : names = names' := by
  induction h generalizing names' with
  | stop hstop =>
    cases h' with
    | stop _ => rfl
    | step hp hnew _ => exact absurd (hstop _ _ hp) hnew
  | step hp hnew _ ih =>
    cases h' with
    | stop hstop => exact absurd (hstop _ _ hp) hnew
    | step hp' _ rest' =>
      rw [hp] at hp'
      cases hp'
      rw [ih rest']

theorem declarationOf?_of_unresolved (s : DeclarationSource) {ref : TypeRef}
    (h : ref.kind = .unresolved) : s.declarationOf? ref = none := by
  rw [DeclarationSource.declarationOf?, if_neg]
  rw [h]
  decide

theorem mem_declarations_of_declarationOf? {s : DeclarationSource} {ref : TypeRef}
    {d : Declaration} (h : s.declarationOf? ref = some d) : d ∈ s.declarations := by
  unfold DeclarationSource.declarationOf? DeclarationSource.find? at h
  split at h
  · split at h
    · cases h
    · exact List.mem_of_find?_eq_some h
  · cases h

/-- The walk goes by the names it may still meet, the chain by those it has met: they make up the
declared names. -/
theorem isChain_chain {s : DeclarationSource} {unmet met : List String} {d : Declaration}
    (hnd : unmet.Nodup)
    (h : ∀ next ∈ s.declarations, ∀ name, next.knownName? = some name →
      (name ∈ unmet ↔ name ∉ met)) :
    IsChain s met d (chain s unmet d).1 := by
  fun_induction chain s unmet d generalizing met with
  | case1 unmet d hd =>
    exact .stop fun name next hp => by simp [DeclarationSource.parent?, hd] at hp
  | case2 unmet d ref hd hk =>
    refine .stop fun name next hp => ?_
    simp [DeclarationSource.parent?, hd, declarationOf?_of_unresolved s hk] at hp
  | case3 unmet d ref hd hk hn =>
    exact .stop fun name next hp => by simp [DeclarationSource.parent?, hd, hn] at hp
  | case4 unmet d ref hd hk next hn hname =>
    exact .stop fun name next hp => by simp [DeclarationSource.parent?, hd, hn, hname] at hp
  | case5 unmet d ref hd hk next hn name hname hmem _ _ names last heq ih =>
    have hp : s.parent? d = some (name, next) := by
      simp [DeclarationSource.parent?, hd, hn, hname]
    have hdecl := mem_declarations_of_declarationOf? hn
    refine .step hp ((h next hdecl name hname).1 hmem) ?_
    rw [heq] at ih
    refine ih (hnd.erase name) fun other ho n hother => ?_
    rw [hnd.mem_erase_iff, h other ho n hother, List.mem_cons, not_or]
  | case6 unmet d ref hd hk next hn name hname hmem =>
    refine .stop fun name' next' hp => ?_
    simp only [DeclarationSource.parent?, hd, hn, hname, Option.pure_def, Option.bind_eq_bind,
      Option.bind_some, Option.some.injEq, Prod.mk.injEq] at hp
    obtain ⟨rfl, rfl⟩ := hp
    have := h next (mem_declarations_of_declarationOf? hn) name hname
    by_contra hnot
    exact hmem (this.2 hnot)

theorem mem_otherNames_iff {s : DeclarationSource} {own name : String} :
    name ∈ otherNames s own ↔
      (∃ d ∈ s.declarations, d.knownName? = some name) ∧ name ≠ own := by
  simp [otherNames]

theorem nodup_otherNames (s : DeclarationSource) (own : String) : (otherNames s own).Nodup :=
  (nodup_eraseDups _).filter _

/-- The ancestors are the chain from the type itself on and then its interfaces. -/
theorem exists_isChain_of (s : DeclarationSource) (d : Declaration) (own : String) :
    ∃ names, IsChain s [own] d names ∧ (Ancestry.of s d own).ancestors = names ++ interfaces s d := by
  refine ⟨_, isChain_chain (nodup_otherNames s own) fun next hnext name hname => ?_, rfl⟩
  rw [mem_otherNames_iff, List.mem_singleton]
  exact and_iff_right ⟨next, hnext, hname⟩

theorem IsChain.exists_of_mem {s : DeclarationSource} {met names : List String} {d : Declaration}
    (h : IsChain s met d names) {name : String} (hname : name ∈ names) :
    ∃ d' ∈ s.declarations, d'.knownName? = some name := by
  induction h with
  | stop _ => cases hname
  | step hparent _ _ ih =>
    rcases List.mem_cons.1 hname with rfl | hrest
    · simp only [DeclarationSource.parent?, Option.bind_eq_bind, Option.bind_eq_some_iff,
        Option.pure_def, Option.some.injEq, Prod.mk.injEq] at hparent
      obtain ⟨ref, -, next, hnext, _, hknown, rfl, rfl⟩ := hparent
      exact ⟨next, mem_declarations_of_declarationOf? hnext, hknown⟩
    · exact ih hrest

/-- Ancestors are declared. -/
theorem exists_of_mem_ancestors {s : DeclarationSource} {d : Declaration} {own name : String}
    (h : name ∈ (Ancestry.of s d own).ancestors) :
    ∃ d' ∈ s.declarations, d'.knownName? = some name := by
  obtain ⟨names, hchain, heq⟩ := exists_isChain_of s d own
  rw [heq] at h
  rcases List.mem_append.1 h with h | h
  · exact hchain.exists_of_mem h
  · obtain ⟨ref, -, hbind⟩ := List.mem_filterMap.1 h
    obtain ⟨next, hnext, hknown⟩ := Option.bind_eq_some_iff.1 hbind
    exact ⟨next, mem_declarations_of_declarationOf? (Option.filter_eq_some_iff.1 hnext).1, hknown⟩

end Ancestry

/-! ## Headings -/

/-- What the walk reads of a declaration that has a name. -/
structure Heading where
  name : String
  isInterface : Bool
  supers : List TypeRef

/-- The heading of a declaration, unless it has no name. -/
def Declaration.heading? (d : Declaration) : Option Heading :=
  d.knownName?.map fun name => ⟨name, d.isInterface, d.supers⟩

/-- The heading of the declaration that a reference points at. -/
def DeclarationSource.heading? (s : DeclarationSource) (ref : TypeRef) : Option Heading :=
  (s.declarationOf? ref).bind Declaration.heading?

theorem DeclarationSource.heading?_eq_some_iff {s : DeclarationSource} {ref : TypeRef}
    {h : Heading} :
    s.heading? ref = some h ↔ ∃ d, s.declarationOf? ref = some d ∧ d.knownName? = some h.name ∧
      d.isInterface = h.isInterface ∧ d.supers = h.supers := by
  obtain ⟨name, isInterface, supers⟩ := h
  simp only [heading?, Declaration.heading?, Option.bind_eq_some_iff, Option.map_eq_some_iff,
    Heading.mk.injEq]
  constructor
  · rintro ⟨d, hd, _, hname, rfl, hrest⟩
    exact ⟨d, hd, hname, hrest⟩
  · rintro ⟨d, hd, hname, hrest⟩
    exact ⟨d, hd, name, hname, rfl, hrest⟩

/-- A heading is that of a declaration of the source. -/
theorem DeclarationSource.exists_of_heading? {s : DeclarationSource} {ref : TypeRef} {h : Heading}
    (hh : s.heading? ref = some h) : ∃ d ∈ s.declarations, d.knownName? = some h.name := by
  obtain ⟨d, hd, hname, -, -⟩ := heading?_eq_some_iff.1 hh
  exact ⟨d, Ancestry.mem_declarations_of_declarationOf? hd, hname⟩

/-- The headings of a source. -/
def DeclarationSource.headings (s : DeclarationSource) : List Heading :=
  s.declarations.filterMap Declaration.heading?

theorem DeclarationSource.map_name_headings (s : DeclarationSource) :
    s.headings.map Heading.name = s.declarations.filterMap Declaration.knownName? := by
  rw [headings, List.map_filterMap]
  refine List.filterMap_congr fun d _ => ?_
  rw [Declaration.heading?, Option.map_map]
  exact Option.map_id'

theorem Declaration.knownName?_eq_some_iff {d : Declaration} {name : String} :
    d.knownName? = some name ↔ d.qualifiedName = some name ∧ Text.isBlankText name = false := by
  simp [knownName?, Option.filter_eq_some_iff]

theorem Declaration.any_heading? (d : Declaration) (name : String) :
    d.heading?.any (·.name == name) = (d.knownName? == some name) := by
  unfold Declaration.heading?
  cases d.knownName? <;> rfl

/-- A reference finds the first heading of its name. -/
theorem DeclarationSource.heading?_eq_find? (s : DeclarationSource) (ref : TypeRef) :
    s.heading? ref =
      if ref.kind = .named then s.headings.find? (·.name == ref.name) else none := by
  unfold heading? declarationOf? find? headings
  by_cases hk : ref.kind = .named
  · rw [if_pos hk, if_pos hk, List.find?_filterMap]
    simp only [Declaration.any_heading?]
    cases hb : Text.isBlankText ref.name with
    | true =>
      -- no heading has a blank name
      have hnone : s.declarations.find? (·.knownName? == some ref.name) = none := by
        refine List.find?_eq_none.2 fun d _ h => ?_
        rw [(Declaration.knownName?_eq_some_iff.1 (eq_of_beq h)).2] at hb
        cases hb
      rw [hnone]
      split
      · rfl
      · refine Option.bind_eq_none_iff.2 fun d hd => ?_
        have hname := List.find?_some hd
        rw [Declaration.heading?, Declaration.knownName?, eq_of_beq hname]
        simp [Option.filter, hb]
    | false =>
      have hne : ref.name ≠ "" := by
        intro he
        rw [he] at hb
        exact absurd hb (by decide)
      have hnamed (d : Declaration) :
          (d.knownName? == some ref.name) = (d.qualifiedName == some ref.name) := by
        rw [Bool.eq_iff_iff, beq_iff_eq, beq_iff_eq, Declaration.knownName?_eq_some_iff,
          and_iff_left hb]
      simp only [hnamed, if_neg hne]
  · rw [if_neg hk, if_neg hk]
    rfl

/-- With distinct names it does not matter in which order the headings stand. -/
theorem DeclarationSource.heading?_perm {s s' : DeclarationSource}
    (hnames : (s.declarations.filterMap Declaration.knownName?).Nodup)
    (h : s.headings.Perm s'.headings) (ref : TypeRef) : s.heading? ref = s'.heading? ref := by
  rw [heading?_eq_find?, heading?_eq_find?, find?_perm h (s.map_name_headings ▸ hnames)]

namespace Ancestry

theorem chain_of_heading_none {s : DeclarationSource} {unmet : List String} {d : Declaration}
    {ref : TypeRef} (hd : d.supers.head? = some ref) (hk : ref.kind ≠ .unresolved)
    (hh : s.heading? ref = none) : chain s unmet d = ([], none) := by
  rw [chain, hd]
  simp only [hk, if_false]
  cases hn : s.declarationOf? ref with
  | none => rfl
  | some next =>
    have hname : next.knownName? = none := by
      simpa [DeclarationSource.heading?, Declaration.heading?, hn] using hh
    simp only [hname]

theorem chain_of_heading {s : DeclarationSource} (unmet : List String) {d : Declaration}
    {ref : TypeRef} {h : Heading} (hd : d.supers.head? = some ref) (hk : ref.kind ≠ .unresolved)
    (hh : s.heading? ref = some h) :
    ∃ next, next.supers = h.supers ∧ chain s unmet d =
      if h.name ∈ unmet then
        (h.name :: (chain s (unmet.erase h.name) next).1, (chain s (unmet.erase h.name) next).2)
      else ([], none) := by
  obtain ⟨next, hn, hname, -, hsupers⟩ := DeclarationSource.heading?_eq_some_iff.1 hh
  refine ⟨next, hsupers, ?_⟩
  rw [chain, hd]
  simp only [hk, if_false, hn, hname]
  split <;> rfl

theorem interfaces_eq (s : DeclarationSource) (d : Declaration) :
    interfaces s d =
      d.supers.filterMap fun ref => ((s.heading? ref).filter (·.isInterface)).map (·.name) := by
  refine List.filterMap_congr fun ref _ => ?_
  unfold DeclarationSource.heading? Declaration.heading?
  cases s.declarationOf? ref with
  | none => rfl
  | some next =>
    cases hname : next.knownName? with
    | none => by_cases hi : next.isInterface <;> simp [Option.filter, hi, hname]
    | some name => by_cases hi : next.isInterface <;> simp [Option.filter, hi, hname]

section

variable {s s' : DeclarationSource} {P : TypeRef → Prop}

/-- The walk depends on nothing but the headings of references that it can come to, and on which of
their names are still unmet. -/
theorem chain_congr (hs : ∀ ref, P ref → s.heading? ref = s'.heading? ref)
    (hclosed : ∀ ref h, P ref → s.heading? ref = some h → ∀ r ∈ h.supers, P r)
    {unmet unmet' : List String} {d d' : Declaration} (hd : d.supers = d'.supers)
    (hP : ∀ ref ∈ d.supers, P ref) (hnd : unmet.Nodup) (hnd' : unmet'.Nodup)
    (hunmet : ∀ ref h, P ref → s.heading? ref = some h → (h.name ∈ unmet ↔ h.name ∈ unmet')) :
    chain s unmet d = chain s' unmet' d' := by
  induction hlen : unmet.length using Nat.strongRecOn generalizing unmet unmet' d d' with
  | _ n ih =>
    cases hhead : d.supers.head? with
    | none => rw [chain, chain, ← hd, hhead]
    | some ref =>
      by_cases hk : ref.kind = .unresolved
      · rw [chain, chain, ← hd, hhead]
        simp only [hk, if_true]
      · have hhead' : d'.supers.head? = some ref := hd ▸ hhead
        have href : P ref := hP ref (List.mem_of_head? hhead)
        cases hh : s.heading? ref with
        | none =>
          rw [chain_of_heading_none hhead hk hh,
            chain_of_heading_none hhead' hk (hs ref href ▸ hh)]
        | some h =>
          obtain ⟨next, hnext, heq⟩ := chain_of_heading unmet hhead hk hh
          obtain ⟨next', hnext', heq'⟩ :=
            chain_of_heading unmet' hhead' hk ((hs ref href).symm.trans hh)
          rw [heq, heq']
          have hmet := hunmet ref h href hh
          by_cases hmem : h.name ∈ unmet
          · have hshort : (unmet.erase h.name).length < n := by
              have := List.length_pos_of_mem hmem
              rw [List.length_erase_of_mem hmem]
              omega
            rw [if_pos hmem, if_pos (hmet.1 hmem),
              ih _ hshort (hnext.trans hnext'.symm) (hnext ▸ hclosed ref h href hh) (hnd.erase _)
                (hnd'.erase _) (fun ref' h' href' hh' => ?_) rfl]
            rw [hnd.mem_erase_iff, hnd'.mem_erase_iff, hunmet ref' h' href' hh']
          · rw [if_neg hmem, if_neg (mt hmet.2 hmem)]

/-- Declarations with the same supertypes have the same ancestry in sources that find the same
headings for the references that lead on from there. -/
theorem of_congr (P : TypeRef → Prop) (hs : ∀ ref, P ref → s.heading? ref = s'.heading? ref)
    (hclosed : ∀ ref h, P ref → s.heading? ref = some h → ∀ r ∈ h.supers, P r)
    {d d' : Declaration} (hd : d.supers = d'.supers) (hP : ∀ ref ∈ d.supers, P ref) (own : String) :
    Ancestry.of s d own = Ancestry.of s' d' own := by
  have hchain : chain s (otherNames s own) d = chain s' (otherNames s' own) d' := by
    refine chain_congr hs hclosed hd hP (nodup_otherNames s own) (nodup_otherNames s' own) ?_
    intro ref h href hh
    have hknown := DeclarationSource.exists_of_heading? hh
    have hknown' := DeclarationSource.exists_of_heading? ((hs ref href).symm.trans hh)
    rw [mem_otherNames_iff, mem_otherNames_iff, and_iff_right hknown, and_iff_right hknown']
  have hinterfaces : interfaces s d = interfaces s' d' := by
    rw [interfaces_eq, interfaces_eq, ← hd]
    exact List.filterMap_congr fun ref href => by rw [hs ref (hP ref href)]
  simp only [Ancestry.of, hchain, hinterfaces, hd]

end

/-- Sources with the same headings, in whatever order, give the same ancestry. -/
theorem of_perm {s s' : DeclarationSource}
    (hnames : (s.declarations.filterMap Declaration.knownName?).Nodup)
    (h : s.headings.Perm s'.headings) (d : Declaration) (own : String) :
    Ancestry.of s d own = Ancestry.of s' d own := by
  exact of_congr (fun _ => True) (fun ref _ => DeclarationSource.heading?_perm hnames h ref)
    (fun _ _ _ _ _ _ => trivial) rfl (fun _ _ => trivial) own

end Ancestry

end Metamodel
