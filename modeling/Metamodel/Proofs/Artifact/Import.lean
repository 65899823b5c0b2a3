import Mathlib.Data.List.Induction
import Mathlib.Data.List.Pairwise
import Metamodel.Artifact.Import
import Metamodel.Proofs.Keyed
import Metamodel.Proofs.Text.Collation

/-!
# The import lines of a file

Requests are gathered into one line for each module and form, in the order of the first request of
each (`foldl_addRequest`). Once they are sorted (`wellFormed_collect`), nothing of the order of the
requests is left (`collect_perm`).
-/

namespace Metamodel

/-- What the line of a request is known by: the module, and whether it is of types only. -/
def ImportRequest.key (r : ImportRequest) : String × Bool :=
  (r.module, r.typeOnly)

theorem ImportRequest.eq_of_key_eq {r q : ImportRequest} (hkey : r.key = q.key)
    (hname : r.name = q.name) : r = q := by
  obtain ⟨module, name, typeOnly⟩ := r
  obtain ⟨hmodule, htype⟩ := Prod.ext_iff.1 hkey
  simp only [key] at hmodule htype
  subst hmodule hname htype
  rfl

namespace Import

/-- What a line is known by. -/
def key (l : Import) : String × Bool :=
  (l.module, l.typeOnly)

/-- The line that requests give a module and form, with each name once. -/
def lineOf (requests : List ImportRequest) (key : String × Bool) : Import :=
  ⟨key.1, ((requests.filter (·.key == key)).map (·.name)).eraseDups, key.2⟩

/-! ## Gathering -/

theorem addRequest_eq (lines : List Import) (r : ImportRequest) :
    addRequest lines r =
      if r.key ∈ lines.map key then
        lines.map fun l =>
          if l.key = r.key ∧ r.name ∉ l.names then { l with names := l.names ++ [r.name] } else l
      else lines ++ [⟨r.module, [r.name], r.typeOnly⟩] := by
  unfold addRequest
  have hkey (l : Import) : (l.module == r.module && l.typeOnly == r.typeOnly) = (l.key == r.key) :=
    rfl
  simp only [hkey]
  by_cases h : r.key ∈ lines.map key
  · have hany : (lines.any fun l => l.key == r.key) = true := by
      obtain ⟨l, hl, hlr⟩ := List.mem_map.1 h
      exact List.any_eq_true.2 ⟨l, hl, beq_iff_eq.2 hlr⟩
    rw [if_pos hany, if_pos h]
    exact List.map_congr_left fun l _ => by simp
  · have hany : ¬ (lines.any fun l => l.key == r.key) = true := by
      rw [List.any_eq_true]
      rintro ⟨l, hl, hlr⟩
      exact h (List.mem_map.2 ⟨l, hl, beq_iff_eq.1 hlr⟩)
    rw [if_neg hany, if_neg h]

/-- One more request changes the line of its own key only. -/
theorem lineOf_concat (requests : List ImportRequest) (r : ImportRequest) (k : String × Bool) :
    lineOf (requests ++ [r]) k =
      if k = r.key ∧ r.name ∉ (lineOf requests k).names then
        { lineOf requests k with names := (lineOf requests k).names ++ [r.name] }
      else lineOf requests k := by
  unfold lineOf
  rw [List.filter_append, List.map_append]
  by_cases hk : r.key = k
  · subst hk
    have hlast : [r].filter (·.key == r.key) = [r] := by simp
    rw [hlast, List.map_singleton, eraseDups_concat]
    simp only [List.mem_eraseDups, true_and, ite_not]
    split <;> rfl
  · have hlast : [r].filter (·.key == k) = [] := by simp [hk]
    rw [hlast, List.map_nil, List.append_nil, if_neg fun h => hk h.1.symm]

/-- Gathering makes the lines of the keys that are requested, each as soon as it is. -/
theorem foldl_addRequest (requests : List ImportRequest) :
    requests.foldl addRequest [] =
      (requests.map ImportRequest.key).eraseDups.map (lineOf requests) := by
  induction requests using List.reverseRecOn with
  | nil => rfl
  | append_singleton requests r ih =>
    have hkeys : ((requests.map ImportRequest.key).eraseDups.map (lineOf requests)).map key =
        (requests.map ImportRequest.key).eraseDups := by
      rw [List.map_map]
      exact List.map_id _
    rw [List.foldl_concat, ih, addRequest_eq, hkeys, List.map_append, List.map_singleton,
      eraseDups_concat]
    by_cases h : r.key ∈ requests.map ImportRequest.key
    · rw [if_pos (List.mem_eraseDups.2 h), if_pos h, List.map_map]
      exact List.map_congr_left fun k _ => (lineOf_concat requests r k).symm
    · have hnone : requests.filter (·.key == r.key) = [] := by
        refine List.filter_eq_nil_iff.2 fun q hq hqr => h ?_
        exact List.mem_map.2 ⟨q, hq, beq_iff_eq.1 hqr⟩
      have hempty : lineOf requests r.key = ⟨r.module, [], r.typeOnly⟩ := by
        unfold lineOf
        rw [hnone]
        rfl
      have hnew : lineOf (requests ++ [r]) r.key = ⟨r.module, [r.name], r.typeOnly⟩ := by
        rw [lineOf_concat, hempty, if_pos ⟨rfl, List.not_mem_nil⟩]
        rfl
      have hold : (requests.map ImportRequest.key).eraseDups.map (lineOf (requests ++ [r])) =
          (requests.map ImportRequest.key).eraseDups.map (lineOf requests) := by
        refine List.map_congr_left fun k hk => ?_
        rw [lineOf_concat, if_neg]
        rintro ⟨rfl, -⟩
        exact h (List.mem_eraseDups.1 hk)
      rw [if_neg (mt List.mem_eraseDups.1 h), if_neg h, List.map_append, List.map_singleton, hold,
        hnew]

/-! ## Sorting -/

instance (runtimeModule : String) : Std.TransCmp (compareLines runtimeModule) :=
  have : Std.TransCmp fun a b : Import => Text.collate a.module b.module :=
    Text.transCmp_on fun l : Import => l.module
  inferInstanceAs (Std.TransCmp (compareLex
    (compareLex (compareOn fun l : Import => l.module != runtimeModule)
      fun a b : Import => Text.collate a.module b.module)
    (compareOn fun l : Import => l.typeOnly)))

theorem key_eq_of_compareLines_eq {runtimeModule : String} {a b : Import}
    (h : compareLines runtimeModule a b = .eq) : a.key = b.key := by
  unfold compareLines at h
  rw [Ordering.then_eq_eq, Ordering.then_eq_eq] at h
  exact Prod.ext (Text.eq_of_collate_eq h.1.2) (Std.LawfulEqOrd.eq_of_compare h.2)

/-- The line of a key as it is written, its names in dictionary order. -/
def sortedLineOf (requests : List ImportRequest) (k : String × Bool) : Import :=
  { lineOf requests k with names := Text.collated (lineOf requests k).names }

theorem collect_eq (runtimeModule : String) (requests : List ImportRequest) :
    collect runtimeModule requests =
      ((requests.map ImportRequest.key).eraseDups.map (sortedLineOf requests)).mergeSort fun a b =>
        (compareLines runtimeModule a b).isLE := by
  unfold collect
  simp only [foldl_addRequest, List.map_map]
  rfl

theorem mem_names_sortedLineOf_iff {requests : List ImportRequest} {k : String × Bool}
    {name : String} :
    name ∈ (sortedLineOf requests k).names ↔ ∃ q ∈ requests, q.key = k ∧ q.name = name := by
  unfold sortedLineOf lineOf
  simp only [Text.mem_collated_iff, List.mem_eraseDups, List.mem_map, List.mem_filter, beq_iff_eq,
    and_assoc]

theorem nodup_names_sortedLineOf (requests : List ImportRequest) (k : String × Bool) :
    (sortedLineOf requests k).names.Nodup := by
  unfold sortedLineOf Text.collated Text.collatedBy
  refine (List.mergeSort_perm _ _).nodup_iff.2 ?_
  exact nodup_eraseDups _

/-- The lines bring the name from the module, as a type only or as a value. -/
def Brings (lines : List Import) (r : ImportRequest) : Prop :=
  ∃ l ∈ lines, l.key = r.key ∧ r.name ∈ l.names

/-- The lines of a file bring what is requested and nothing else. -/
theorem brings_collect_iff {runtimeModule : String} {requests : List ImportRequest}
    {r : ImportRequest} : Brings (collect runtimeModule requests) r ↔ r ∈ requests := by
  unfold Brings
  rw [collect_eq]
  constructor
  · rintro ⟨l, hl, hkey, hname⟩
    rw [List.mem_mergeSort, List.mem_map] at hl
    obtain ⟨k, -, rfl⟩ := hl
    obtain ⟨q, hq, hqk, hqn⟩ := mem_names_sortedLineOf_iff.1 hname
    have hqr : q = r := ImportRequest.eq_of_key_eq (hqk.trans hkey) hqn
    exact hqr ▸ hq
  · intro hr
    refine ⟨sortedLineOf requests r.key, ?_, rfl, mem_names_sortedLineOf_iff.2 ⟨r, hr, rfl, rfl⟩⟩
    rw [List.mem_mergeSort, List.mem_map]
    exact ⟨r.key, List.mem_eraseDups.2 (List.mem_map_of_mem hr), rfl⟩

/-- The names that import lines bind, line by line. -/
def boundNames (lines : List Import) : List String :=
  lines.flatMap (·.names)

theorem mem_boundNames_iff {lines : List Import} {name : String} :
    name ∈ boundNames lines ↔ ∃ r, Brings lines r ∧ r.name = name := by
  unfold boundNames Brings
  rw [List.mem_flatMap]
  constructor
  · rintro ⟨l, hl, hname⟩
    exact ⟨⟨l.module, name, l.typeOnly⟩, ⟨l, hl, rfl, hname⟩, rfl⟩
  · rintro ⟨r, ⟨l, hl, -, hname⟩, rfl⟩
    exact ⟨l, hl, hname⟩

/-- No name is bound twice exactly when no name is requested in two ways: each line lists a name
once, and different lines are of different modules or forms. -/
theorem nodup_boundNames_collect_iff {runtimeModule : String} {requests : List ImportRequest} :
    (boundNames (collect runtimeModule requests)).Nodup ↔
      ∀ r ∈ requests, ∀ q ∈ requests, r.name = q.name → r = q := by
  have hperm : (boundNames (collect runtimeModule requests)).Perm
      ((requests.map ImportRequest.key).eraseDups.flatMap fun k => (sortedLineOf requests k).names) := by
    unfold boundNames
    rw [collect_eq]
    refine ((List.mergeSort_perm _ _).flatMap_right _).trans ?_
    rw [List.flatMap_map]
  have hkeys := nodup_eraseDups (requests.map ImportRequest.key)
  rw [hperm.nodup_iff, List.nodup_flatMap]
  constructor
  · rintro ⟨-, hdisjoint⟩ r hr q hq hname
    refine ImportRequest.eq_of_key_eq ?_ hname
    by_contra hne
    have hrk : r.key ∈ (requests.map ImportRequest.key).eraseDups :=
      List.mem_eraseDups.2 (List.mem_map_of_mem hr)
    have hqk : q.key ∈ (requests.map ImportRequest.key).eraseDups :=
      List.mem_eraseDups.2 (List.mem_map_of_mem hq)
    have hsymm : Std.Symm (Function.onFun List.Disjoint fun k => (sortedLineOf requests k).names) :=
      ⟨fun _ _ h _ hx hy => h hy hx⟩
    refine hdisjoint.forall hrk hqk hne (mem_names_sortedLineOf_iff.2 ⟨r, hr, rfl, rfl⟩) ?_
    exact mem_names_sortedLineOf_iff.2 ⟨q, hq, rfl, hname.symm⟩
  · intro h
    refine ⟨fun k _ => nodup_names_sortedLineOf requests k, hkeys.imp ?_⟩
    intro k k' hne name hname hname'
    obtain ⟨r, hr, rfl, hrn⟩ := mem_names_sortedLineOf_iff.1 hname
    obtain ⟨q, hq, rfl, hqn⟩ := mem_names_sortedLineOf_iff.1 hname'
    exact hne (congrArg ImportRequest.key (h r hr q hq (hrn.trans hqn.symm)))

/-- The form of the import lines of a file. -/
structure WellFormed (runtimeModule : String) (lines : List Import) : Prop where
  /-- a module has one line for its values and one for its types -/
  keys : (lines.map key).Nodup
  nonempty : ∀ l ∈ lines, l.names ≠ []
  /-- the names of a line are in dictionary order, each once -/
  names : ∀ l ∈ lines, l.names.Pairwise fun a b => Text.collate a b = .lt
  /-- the lines of the runtime are the first -/
  runtime : lines.Pairwise fun l l' => l'.module = runtimeModule → l.module = runtimeModule

theorem module_eq_of_compareLines {runtimeModule : String} {a b : Import}
    (h : (compareLines runtimeModule a b).isLE = true) (hb : b.module = runtimeModule) :
    a.module = runtimeModule := by
  by_contra ha
  have hfirst : compare (a.module != runtimeModule) (b.module != runtimeModule) = .gt := by
    rw [hb, bne_self_eq_false, bne_iff_ne.2 ha]
    decide
  unfold compareLines at h
  rw [hfirst] at h
  cases h

theorem wellFormed_collect (runtimeModule : String) (requests : List ImportRequest) :
    WellFormed runtimeModule (collect runtimeModule requests) := by
  have hmem (l : Import) : l ∈ collect runtimeModule requests ↔
      ∃ k ∈ requests.map ImportRequest.key, sortedLineOf requests k = l := by
    rw [collect_eq, List.mem_mergeSort, List.mem_map]
    simp only [List.mem_eraseDups]
  refine ⟨?_, fun l hl => ?_, fun l hl => ?_, ?_⟩
  · have hkeys : ((requests.map ImportRequest.key).eraseDups.map (sortedLineOf requests)).map key =
        (requests.map ImportRequest.key).eraseDups := by
      rw [List.map_map]
      exact List.map_id _
    rw [collect_eq, ((List.mergeSort_perm _ _).map key).nodup_iff, hkeys]
    exact nodup_eraseDups _
  · obtain ⟨k, hk, rfl⟩ := (hmem l).1 hl
    obtain ⟨r, hr, rfl⟩ := List.mem_map.1 hk
    exact List.ne_nil_of_mem (mem_names_sortedLineOf_iff.2 ⟨r, hr, rfl, rfl⟩)
  · obtain ⟨k, -, rfl⟩ := (hmem l).1 hl
    exact Text.pairwise_lt_collated (nodup_eraseDups _)
  · rw [collect_eq]
    exact (Text.pairwise_mergeSort inferInstance _).imp module_eq_of_compareLines

theorem sortedLineOf_perm {requests requests' : List ImportRequest} (h : requests.Perm requests') :
    sortedLineOf requests = sortedLineOf requests' := by
  funext k
  have hnames : Text.collated (lineOf requests k).names = Text.collated (lineOf requests' k).names :=
    Text.collated_perm (eraseDups_perm ((h.filter _).map _))
  unfold sortedLineOf
  rw [hnames]
  rfl

/-- The lines of a file do not depend on the order of its requests. -/
theorem collect_perm (runtimeModule : String) {requests requests' : List ImportRequest}
    (h : requests.Perm requests') :
    collect runtimeModule requests = collect runtimeModule requests' := by
  rw [collect_eq, collect_eq, sortedLineOf_perm h]
  have hkeys := eraseDups_perm (h.map ImportRequest.key)
  refine Text.mergeSort_perm_eq inferInstance (hkeys.map _) fun a ha b hb hab => ?_
  obtain ⟨k, -, rfl⟩ := List.mem_map.1 ha
  obtain ⟨k', -, rfl⟩ := List.mem_map.1 hb
  have hkk : k = k' := key_eq_of_compareLines_eq hab
  rw [hkk]

end Import

end Metamodel
