import Mathlib.Data.List.Perm.Subperm
import Metamodel.Proofs.Entity.Ancestry

/-!
# The supertype walk, step by step

A walk stands at a declaration and remembers the names it has visited. A step goes on to the parent,
unless that is missing or its name was visited before. So the names of a walk stay distinct and
declared (`Walk.Sound`), and a walk makes fewer steps than there are declared names. The chain of
first supertypes is what a walk visits until it ends (`exists_visits_chain`).
-/

namespace Metamodel

/-- The names of the declarations, each once. -/
def DeclarationSource.knownNames (s : DeclarationSource) : List String :=
  (s.declarations.filterMap Declaration.knownName?).eraseDups

theorem DeclarationSource.mem_knownNames_iff {s : DeclarationSource} {name : String} :
    name ∈ s.knownNames ↔ ∃ d ∈ s.declarations, d.knownName? = some name := by
  rw [knownNames, List.mem_eraseDups, List.mem_filterMap]

/-- The name of the first supertype, when that does not resolve. -/
def Declaration.unresolvedParent? (d : Declaration) : Option String :=
  (d.supers.head?.filter (·.isUnresolved)).map (·.name)

/-- A walk along first supertypes: where it stands, and the names that it has visited. -/
structure Walk where
  current : Declaration
  visited : List String

namespace Walk

/-- The walk that starts at a declaration of the given name. -/
def start (d : Declaration) (own : String) : Walk :=
  ⟨d, [own]⟩

/-- One step, unless the walk ends here. -/
def next? (s : DeclarationSource) (w : Walk) : Option Walk :=
  match s.parent? w.current with
  | some (name, next) => if name ∈ w.visited then none else some ⟨next, w.visited ++ [name]⟩
  | none => none

/-- A number of steps. -/
def after? (s : DeclarationSource) : Nat → Walk → Option Walk
  | 0, w => some w
  | n + 1, w => (w.next? s).bind (after? s n)

/-- The walk has visited declared names, each once. -/
structure Sound (s : DeclarationSource) (w : Walk) : Prop where
  nodup : w.visited.Nodup
  declared : ∀ name ∈ w.visited, name ∈ s.knownNames

variable {s : DeclarationSource} {w w' : Walk}

/-! ## Steps -/

theorem next?_eq_some_iff :
    w.next? s = some w' ↔ ∃ name next, s.parent? w.current = some (name, next) ∧
      name ∉ w.visited ∧ w' = ⟨next, w.visited ++ [name]⟩ := by
  unfold next?
  cases hparent : s.parent? w.current with
  | none => simp
  | some parent =>
    obtain ⟨name, next⟩ := parent
    by_cases hmem : name ∈ w.visited
    · simp [hmem]
    · simp [hmem, eq_comm]

theorem next?_of_parent {name : String} {next : Declaration}
    (hparent : s.parent? w.current = some (name, next)) (hnew : name ∉ w.visited) :
    w.next? s = some ⟨next, w.visited ++ [name]⟩ :=
  next?_eq_some_iff.2 ⟨name, next, hparent, hnew, rfl⟩

/-- A parent is declared under its name. -/
theorem mem_knownNames_of_parent {d next : Declaration} {name : String}
    (h : s.parent? d = some (name, next)) : name ∈ s.knownNames := by
  simp only [DeclarationSource.parent?, Option.bind_eq_bind, Option.bind_eq_some_iff,
    Option.pure_def, Option.some.injEq, Prod.mk.injEq] at h
  obtain ⟨ref, -, _, hnext, _, hknown, rfl, rfl⟩ := h
  rw [DeclarationSource.mem_knownNames_iff]
  exact ⟨_, Ancestry.mem_declarations_of_declarationOf? hnext, hknown⟩

theorem sound_start {d : Declaration} {own : String} (hd : d ∈ s.declarations)
    (hname : d.knownName? = some own) : (start d own).Sound s where
  nodup := List.nodup_singleton own
  declared name h := by
    rw [List.mem_singleton.1 h, DeclarationSource.mem_knownNames_iff]
    exact ⟨d, hd, hname⟩

theorem Sound.next (h : w.Sound s) (hnext : w.next? s = some w') : w'.Sound s := by
  obtain ⟨name, next, hparent, hnew, rfl⟩ := next?_eq_some_iff.1 hnext
  constructor
  · apply List.Nodup.append h.nodup (List.nodup_singleton name)
    simpa using hnew
  · intro other hother
    rcases List.mem_append.1 hother with hvisited | hlast
    · exact h.declared other hvisited
    · rw [List.mem_singleton.1 hlast]
      exact mem_knownNames_of_parent hparent

/-! ## Runs -/

theorem Sound.after {n : Nat} (h : w.Sound s) (hafter : after? s n w = some w') : w'.Sound s := by
  induction n generalizing w with
  | zero =>
    cases hafter
    exact h
  | succ n ih =>
    obtain ⟨v, hnext, hrest⟩ := Option.bind_eq_some_iff.1 hafter
    exact ih (h.next hnext) hrest

/-- A walk visits no more names than are declared. -/
theorem Sound.length_le (h : w.Sound s) : w.visited.length ≤ s.knownNames.length :=
  (List.subperm_of_subset h.nodup h.declared).length_le

/-- A walk that ends after some steps makes these and no more. -/
theorem isSome_after?_iff {n : Nat} (hafter : after? s n w = some w') (hend : w'.next? s = none)
    (m : Nat) : (after? s m w).isSome ↔ m ≤ n := by
  induction n generalizing w m with
  | zero =>
    cases hafter
    cases m <;> simp [after?, hend]
  | succ n ih =>
    obtain ⟨v, hnext, hrest⟩ := Option.bind_eq_some_iff.1 hafter
    cases m with
    | zero => simp [after?]
    | succ m =>
      rw [after?, hnext, Option.bind_some, ih hrest]
      omega

/-- The walk visits the names one after the other, and ends at the declaration. -/
structure Visits (s : DeclarationSource) (w : Walk) (names : List String) (last : Declaration) :
    Prop where
  arrives : after? s names.length w = some ⟨last, w.visited ++ names⟩
  ends : next? s ⟨last, w.visited ++ names⟩ = none

theorem Visits.stop (h : w.next? s = none) : w.Visits s [] w.current where
  arrives := by simp [after?]
  ends := by simpa using h

theorem Visits.step {name : String} {next last : Declaration} {names : List String}
    (hparent : s.parent? w.current = some (name, next)) (hnew : name ∉ w.visited)
    (h : Visits s ⟨next, w.visited ++ [name]⟩ names last) : w.Visits s (name :: names) last where
  arrives := by
    rw [List.length_cons, after?, next?_of_parent hparent hnew, Option.bind_some, h.arrives,
      List.append_assoc]
    rfl
  ends := by
    have hends := h.ends
    rwa [List.append_assoc] at hends

end Walk

namespace Ancestry

open Walk

/-- The chain is what a walk visits until it ends, and it goes with the unresolved reference at which
the walk ends. The walk goes by the names it has visited, the chain by those it may still meet. -/
theorem exists_visits_chain {s : DeclarationSource} {unmet visited : List String} {d : Declaration}
    (hnd : unmet.Nodup)
    (h : ∀ next ∈ s.declarations, ∀ name, next.knownName? = some name →
      (name ∈ unmet ↔ name ∉ visited)) :
    ∃ last, Visits s ⟨d, visited⟩ (chain s unmet d).1 last ∧
      last.unresolvedParent? = (chain s unmet d).2 := by
  have hresolved {ref : TypeRef} (hk : ¬ ref.kind = .unresolved) : ref.isUnresolved = false := by
    rw [TypeRef.isUnresolved]
    exact beq_false_of_ne hk
  fun_induction chain s unmet d generalizing visited with
  | case1 unmet d hd =>
    refine ⟨d, Visits.stop ?_, ?_⟩
    · simp [next?, DeclarationSource.parent?, hd]
    · simp [Declaration.unresolvedParent?, hd]
  | case2 unmet d ref hd hk =>
    refine ⟨d, Visits.stop ?_, ?_⟩
    · simp [next?, DeclarationSource.parent?, hd, declarationOf?_of_unresolved s hk]
    · simp [Declaration.unresolvedParent?, hd, TypeRef.isUnresolved, hk]
  | case3 unmet d ref hd hk hn =>
    refine ⟨d, Visits.stop ?_, ?_⟩
    · simp [next?, DeclarationSource.parent?, hd, hn]
    · simp [Declaration.unresolvedParent?, hd, hresolved hk]
  | case4 unmet d ref hd hk next hn hname =>
    refine ⟨d, Visits.stop ?_, ?_⟩
    · simp [next?, DeclarationSource.parent?, hd, hn, hname]
    · simp [Declaration.unresolvedParent?, hd, hresolved hk]
  | case5 unmet d ref hd hk next hn name hname hmem _ _ names last heq ih =>
    have hparent : s.parent? d = some (name, next) := by
      simp [DeclarationSource.parent?, hd, hn, hname]
    have hnew : name ∉ visited :=
      (h next (mem_declarations_of_declarationOf? hn) name hname).1 hmem
    have hmet : ∀ other ∈ s.declarations, ∀ n, other.knownName? = some n →
        (n ∈ unmet.erase name ↔ n ∉ visited ++ [name]) := by
      intro other hother n hn'
      rw [hnd.mem_erase_iff, h other hother n hn', List.mem_append, List.mem_singleton, not_or,
        and_comm]
    rw [heq] at ih
    obtain ⟨stop, hvisits, hunresolved⟩ := ih (hnd.erase name) hmet
    exact ⟨stop, Visits.step hparent hnew hvisits, hunresolved⟩
  | case6 unmet d ref hd hk next hn name hname hmem =>
    have hvisited : name ∈ visited := by
      by_contra hnew
      exact hmem ((h next (mem_declarations_of_declarationOf? hn) name hname).2 hnew)
    refine ⟨d, Visits.stop ?_, ?_⟩
    · simp [next?, DeclarationSource.parent?, hd, hn, hname, hvisited]
    · simp [Declaration.unresolvedParent?, hd, hresolved hk]

/-- So it is with the chain of the ancestry. -/
theorem exists_visits_start (s : DeclarationSource) (d : Declaration) (own : String) :
    ∃ last, (start d own).Visits s (chain s (otherNames s own) d).1 last ∧
      last.unresolvedParent? = (chain s (otherNames s own) d).2 := by
  apply exists_visits_chain (nodup_otherNames s own)
  intro next hnext name hname
  rw [mem_otherNames_iff, List.mem_singleton]
  exact and_iff_right ⟨next, hnext, hname⟩

end Ancestry

end Metamodel
