import Metamodel.Proofs.Graph.Assembly
import Metamodel.Proofs.Report.Counts
import Metamodel.Proofs.Text.Collation

/-!
# The account of a run

The report of a run counts its nodes by their kinds, its edges by their cardinalities and its
findings by their severities, and no item is left out of a count or counted twice
(`Report.accountsFor_record`). It has all findings and labels of the run. The labels stand in
dictionary order, and so do the findings, by the texts of their locations, then of their codes, then
by their messages (`Diagnostic.keys`); findings with the same texts stand as they came. There is one
such order only (`Diagnostic.eq_of_pairwise`).
-/

namespace Metamodel

/-! ## The order of findings -/

instance : Std.TransCmp Diagnostic.compare :=
  have : Std.TransCmp fun a b : Diagnostic => Text.collate a.locationText b.locationText :=
    Text.transCmp_on Diagnostic.locationText
  have : Std.TransCmp fun a b : Diagnostic => Text.collate a.code.text b.code.text :=
    Text.transCmp_on fun d : Diagnostic => d.code.text
  have : Std.TransCmp fun a b : Diagnostic => Text.collate a.message b.message :=
    Text.transCmp_on Diagnostic.message
  inferInstanceAs (Std.TransCmp (compareLex
    (compareLex (fun a b : Diagnostic => Text.collate a.locationText b.locationText)
      fun a b : Diagnostic => Text.collate a.code.text b.code.text)
    fun a b : Diagnostic => Text.collate a.message b.message))

/-- The texts that decide where a finding stands, the first one first: that of its location, which
is empty where there is none, that of its code, and its message. -/
def Diagnostic.keys (d : Diagnostic) : List String :=
  [(d.location.map Location.text).getD "", d.code.text, d.message]

/-- The finding belongs in front of the other: at the first of their texts that differ, its text
comes first in the dictionary. -/
def Diagnostic.Precedes (a b : Diagnostic) : Prop :=
  List.Lex (fun x y => Text.collate x y = .lt) a.keys b.keys

theorem Diagnostic.precedes_iff {a b : Diagnostic} : a.Precedes b ↔ compare a b = .lt := by
  simp only [Precedes, keys, List.cons_lex_cons_iff, List.not_lex_nil, compare, locationText,
    Ordering.then_eq_lt, Ordering.then_eq_eq, Std.LawfulEqCmp.compare_eq_iff_eq]
  tauto

instance : DecidableRel Diagnostic.Precedes :=
  fun _ _ => decidable_of_iff _ Diagnostic.precedes_iff.symm

theorem Diagnostic.isLE_compare_iff {a b : Diagnostic} :
    (compare a b).isLE = true ↔ ¬ b.Precedes a := by
  rw [precedes_iff, Ordering.isLE_iff_ne_gt, ← Std.OrientedCmp.gt_iff_lt]

theorem Diagnostic.keys_eq_iff {a b : Diagnostic} : a.keys = b.keys ↔ compare a b = .eq := by
  simp only [keys, compare, locationText, List.cons.injEq, Ordering.then_eq_eq,
    Std.LawfulEqCmp.compare_eq_iff_eq, and_assoc, and_true]

/-- No finding stands behind one that it precedes. -/
theorem Diagnostic.pairwise_sorted (ds : List Diagnostic) :
    (sorted ds).Pairwise fun a b => ¬ b.Precedes a :=
  (Text.pairwise_mergeSort inferInstance ds).imp isLE_compare_iff.1

/-- Findings with the same texts stand as they came. -/
theorem Diagnostic.filter_keys_sorted (keys : List String) (ds : List Diagnostic) :
    (sorted ds).filter (·.keys = keys) = ds.filter (·.keys = keys) := by
  by_cases hkeys : ∃ d ∈ ds, d.keys = keys
  · obtain ⟨d, -, rfl⟩ := hkeys
    have hties : (fun x : Diagnostic => decide (x.keys = d.keys)) = (compare d · == .eq) := by
      funext x
      rw [Bool.eq_iff_iff, decide_eq_true_eq, beq_iff_eq, ← keys_eq_iff, eq_comm]
    rw [hties]
    exact Text.filter_mergeSort_tie inferInstance d ds
  · have hnone (xs : List Diagnostic) (hsub : ∀ d ∈ xs, d ∈ ds) : xs.filter (·.keys = keys) = [] :=
      List.filter_eq_nil_iff.2 fun d hd heq => hkeys ⟨d, hsub d hd, of_decide_eq_true heq⟩
    rw [hnone ds fun _ => id, hnone (sorted ds) fun d => List.mem_mergeSort.1]

/-- Findings neither of which precedes the other have the same texts. -/
theorem Diagnostic.keys_eq_of_not_precedes {a b : Diagnostic} (hab : ¬ b.Precedes a)
    (hba : ¬ a.Precedes b) : a.keys = b.keys :=
  keys_eq_iff.2 (Std.OrientedCmp.isLE_antisymm (isLE_compare_iff.2 hab) (isLE_compare_iff.2 hba))

/-- The same findings in order have the same texts at the same places. -/
theorem Diagnostic.map_keys_eq {xs ys : List Diagnostic} (h : xs.Perm ys)
    (hxs : xs.Pairwise fun a b => ¬ b.Precedes a) (hys : ys.Pairwise fun a b => ¬ b.Precedes a) :
    xs.map keys = ys.map keys := by
  have hsorted (zs : List Diagnostic) (hzs : zs.Pairwise fun a b => ¬ b.Precedes a) :
      (zs.map keys).Pairwise fun k l => ¬ List.Lex (fun x y => Text.collate x y = .lt) l k :=
    List.pairwise_map.2 hzs
  refine (h.map keys).eq_of_pairwise ?_ (hsorted xs hxs) (hsorted ys hys)
  intro _ _ ha hb hab hba
  obtain ⟨a, -, rfl⟩ := List.mem_map.1 ha
  obtain ⟨b, -, rfl⟩ := List.mem_map.1 hb
  exact keys_eq_of_not_precedes hab hba

/-- Lists whose items have the same keys in the same order, and the same items of each key, are the
same. -/
theorem Diagnostic.eq_of_filter_eq {α β : Type} [DecidableEq β] {key : α → β} {xs ys : List α}
    (hkeys : xs.map key = ys.map key)
    (h : ∀ x ∈ xs, xs.filter (key · = key x) = ys.filter (key · = key x)) : xs = ys := by
  induction xs generalizing ys with
  | nil => exact (List.map_eq_nil_iff.1 hkeys.symm).symm
  | cons x xs ih =>
    cases ys with
    | nil => cases hkeys
    | cons y ys =>
      obtain ⟨hkey, htail⟩ := List.cons_eq_cons.1 hkeys
      have hhead : x = y := by
        have hx := h x List.mem_cons_self
        rw [List.filter_cons_of_pos (by simp), List.filter_cons_of_pos (by simp [hkey])] at hx
        exact (List.cons_eq_cons.1 hx).1
      subst hhead
      refine congrArg (x :: ·) (ih htail fun z hz => ?_)
      have hk := h z (List.mem_cons_of_mem x hz)
      by_cases hx : key x = key z
      · rw [List.filter_cons_of_pos (by simpa using hx),
          List.filter_cons_of_pos (by simpa using hx)] at hk
        exact (List.cons_eq_cons.1 hk).2
      · rwa [List.filter_cons_of_neg (by simpa using hx),
          List.filter_cons_of_neg (by simpa using hx)] at hk

/-- Findings stand in one order only, if those with the same texts stand as they came. -/
theorem Diagnostic.eq_of_pairwise {xs ys : List Diagnostic} (h : xs.Perm ys)
    (hxs : xs.Pairwise fun a b => ¬ b.Precedes a) (hys : ys.Pairwise fun a b => ¬ b.Precedes a)
    (hties : ∀ x ∈ xs, xs.filter (·.keys = x.keys) = ys.filter (·.keys = x.keys)) : xs = ys :=
  eq_of_filter_eq (map_keys_eq h hxs hys) hties

/-! ## What a report tells -/

/-- The number of findings of a severity. -/
def SeverityCounts.number (c : SeverityCounts) : Severity → Nat
  | .info => c.info
  | .warning => c.warning
  | .error => c.error

/-- The name under which edges of a cardinality, or of none, are counted. -/
def Report.nameOf (c : Option Cardinality) : String :=
  (c.map Cardinality.text).getD "NONE"

/-- The report tells of the graph, the findings and the labels of a run. -/
structure Report.AccountsFor (r : Report) (graph : Graph) (ds : List Diagnostic)
    (invalid : List String) : Prop where
  kinds : r.entitiesByKind.Tells (graph.nodes.map (·.kind.text))
  kind (k : EntityKind) : r.entitiesByKind.lookup k.text =
    Counts.occurrences? (graph.nodes.countP (·.kind == k))
  cardinalities : r.relationshipsByCardinality.Tells (graph.edges.map Report.cardinalityName)
  cardinality (c : Option Cardinality) : r.relationshipsByCardinality.lookup (Report.nameOf c) =
    Counts.occurrences? (graph.edges.countP (·.property.cardinality == c))
  severity (s : Severity) : r.diagnosticsBySeverity.number s = ds.countP (·.severity == s)
  severities : (Severity.all.map r.diagnosticsBySeverity.number).sum = ds.length
  diagnostics : r.diagnostics.Perm ds
  diagnostics_sorted : r.diagnostics.Pairwise fun a b => ¬ b.Precedes a
  diagnostics_stable (keys : List String) :
    r.diagnostics.filter (·.keys = keys) = ds.filter (·.keys = keys)
  invalid : r.invalid.Perm invalid
  invalid_sorted : r.invalid.Pairwise fun a b => (Text.collate a b).isLE

namespace Report

/-! ## Counting -/

/-- Items are counted under names that tell them apart. -/
theorem count_map_name {α β : Type} [BEq β] [LawfulBEq β] {name : β → String}
    (hname : Function.Injective name) (f : α → β) (xs : List α) (b : β) :
    (xs.map fun x => name (f x)).count (name b) = xs.countP (f · == b) := by
  rw [List.count, List.countP_map]
  refine List.countP_congr fun x _ => ?_
  simp [hname.eq_iff]

theorem injective_kind_text : Function.Injective EntityKind.text := by
  intro a b h
  cases a <;> cases b <;> simp [EntityKind.text] at h ⊢

theorem injective_nameOf : Function.Injective nameOf := by
  have hall : ∀ a ∈ none :: Cardinality.byPriority.map some,
      ∀ b ∈ none :: Cardinality.byPriority.map some, nameOf a = nameOf b → a = b := by decide
  have hmem (c : Option Cardinality) : c ∈ none :: Cardinality.byPriority.map some := by
    cases c with
    | none => decide
    | some c => cases c <;> decide
  exact fun a b h => hall a (hmem a) b (hmem b) h

theorem kind_text_ne_prototypeName (k : EntityKind) : k.text ≠ Json.prototypeName := by
  cases k <;> decide

theorem nameOf_ne_prototypeName (c : Option Cardinality) : nameOf c ≠ Json.prototypeName := by
  cases c with
  | none => decide
  | some c => cases c <;> decide

theorem prototypeName_notMem {α β : Type} {name : β → String} {f : α → β} {xs : List α}
    (h : ∀ b, name b ≠ Json.prototypeName) : Json.prototypeName ∉ xs.map fun x => name (f x) := by
  intro hmem
  obtain ⟨x, -, hx⟩ := List.mem_map.1 hmem
  exact h (f x) hx

theorem foldl_eq_tally {α β : Type} {name : β → String} (h : ∀ b, name b ≠ Json.prototypeName)
    (f : α → β) (xs : List α) :
    xs.foldl (fun (c : Counts) x => c.increase (name (f x)) (.ofNat 1)) [] =
      Counts.tally (xs.map fun x => name (f x)) := by
  have hnames : Json.prototypeName ∉ xs.map fun x => name (f x) := prototypeName_notMem h
  have hfold := Counts.foldl_increase hnames
  rwa [List.foldl_map] at hfold

theorem tells_foldl {α β : Type} {name : β → String} (h : ∀ b, name b ≠ Json.prototypeName)
    (f : α → β) (xs : List α) :
    (xs.foldl (fun (c : Counts) x => c.increase (name (f x)) (.ofNat 1)) []).Tells
      (xs.map fun x => name (f x)) := by
  rw [foldl_eq_tally h]
  exact Counts.tells_tally _

theorem sum_count_severity (ds : List Diagnostic) :
    (Severity.all.map fun s => ds.countP (·.severity == s)).sum = ds.length := by
  induction ds with
  | nil => rfl
  | cons d ds ih =>
    rw [List.length_cons, ← ih]
    simp only [Severity.all, List.map_cons, List.map_nil, List.sum_cons, List.sum_nil,
      List.countP_cons]
    cases d.severity <;> simp <;> omega

theorem number_increase (c : SeverityCounts) (severity s : Severity) :
    (c.increase severity).number s = c.number s + if severity == s then 1 else 0 := by
  cases severity <;> cases s <;> rfl

theorem number_foldl (ds : List Diagnostic) (c : SeverityCounts) (s : Severity) :
    (ds.foldl (fun c d => c.increase d.severity) c).number s =
      c.number s + ds.countP (·.severity == s) := by
  induction ds generalizing c with
  | nil => rfl
  | cons d ds ih =>
    rw [List.foldl_cons, ih, number_increase, List.countP_cons]
    omega

/-- To count findings one after the other is to count those of each severity. -/
theorem number_of (ds : List Diagnostic) (s : Severity) :
    (SeverityCounts.of ds).number s = ds.countP (·.severity == s) := by
  have hzero : (SeverityCounts.mk 0 0 0).number s = 0 := by cases s <;> rfl
  rw [SeverityCounts.of, number_foldl, hzero, Nat.zero_add]

/-- A fresh report on which a run is recorded tells of the run, whatever its graph, its findings and
its labels are. -/
theorem accountsFor_record (toolName toolVersion projectRoot startedAt : String) (graph : Graph)
    (ds : List Diagnostic) (labels : List String) (emitted : Bool) :
    ((empty toolName toolVersion projectRoot startedAt).record graph ds labels emitted).AccountsFor
      graph ds labels := by
  have hkinds := tells_foldl kind_text_ne_prototypeName Entity.kind graph.nodes
  have hcardinalities :=
    tells_foldl nameOf_ne_prototypeName (fun e : Edge => e.property.cardinality) graph.edges
  refine ⟨hkinds, fun k => ?_, hcardinalities, fun c => ?_, number_of ds, ?_,
    List.mergeSort_perm _ _, Diagnostic.pairwise_sorted ds,
    fun keys => Diagnostic.filter_keys_sorted keys ds, List.mergeSort_perm _ _,
    Text.pairwise_mergeSort (Text.transCmp_on id) _⟩
  · refine (hkinds.number k.text).trans ?_
    rw [count_map_name injective_kind_text]
  · refine (hcardinalities.number (nameOf c)).trans ?_
    rw [count_map_name injective_nameOf]
  · exact (congrArg List.sum (List.map_congr_left fun s _ => number_of ds s)).trans
      (sum_count_severity ds)

namespace Sample

/-- An entity without a key. -/
def keyless (name : String) (line column : Nat) : Diagnostic :=
  ⟨.missingKey, .error, "Entity shop." ++ name ++ " must have at least one key property",
    some ("shop." ++ name), none, some ⟨"shop/" ++ name ++ ".ts", some line, some column⟩⟩

/-- A property of a customer that leads to an agent, which is none of the types. -/
def dangling (property : String) (line column : Nat) : Diagnostic :=
  ⟨.danglingRelationship, .error,
    "Relationship shop.Customer." ++ property ++ " refers to shop.Agent, which is not in the graph",
    some "shop.Customer", some property, some ⟨"shop/Customer.ts", some line, some column⟩⟩

/-- A type without a location, whose table has the name of a reserved word. -/
def reserved (entity : String) : Diagnostic :=
  ⟨.reservedTableName, .warning, "Table or view name ORDER may need to be escaped", some entity,
    none, none⟩

/-- Findings as they come. -/
def found : List Diagnostic :=
  [keyless "Purchase" 3 1, keyless "Customer" 3 1, dangling "seller" 3 1, dangling "agent" 10 3,
    reserved "shop.Order", dangling "buyer" 3 1, reserved "archive.Order"]

/-- The same findings as they are listed. -/
def listed : List Diagnostic :=
  [reserved "shop.Order", reserved "archive.Order", dangling "agent" 10 3, dangling "buyer" 3 1,
    dangling "seller" 3 1, keyless "Customer" 3 1, keyless "Purchase" 3 1]

end Sample

/-- Locations are ordered as texts, with line 10 in front of line 3, and findings without one stand
in front of all; two of those that no text tells apart stand as they came. -/
theorem accountsFor_sample :
    let graph :=
      Graph.assemble [Sample.customer, Sample.purchase .entity] [Sample.purchase .superclass] []
    let r := (empty "tool" "1" "/p" "S").record graph Sample.found ["shop.b", "Shop.a", "shop.a"]
      true
    r.AccountsFor graph Sample.found ["shop.b", "Shop.a", "shop.a"] ∧
      r.entitiesByKind = [("ENTITY", .ofNat 2)] ∧
      r.relationshipsByCardinality =
        [("ONE_TO_MANY", .ofNat 1), ("ONE_TO_ONE", .ofNat 1), ("MANY_TO_ONE", .ofNat 1)] ∧
      r.diagnosticsBySeverity = ⟨0, 2, 5⟩ ∧
      r.diagnostics = Sample.listed ∧
      Sample.listed.map Diagnostic.locationText = ["", "", "shop/Customer.ts:10:3",
        "shop/Customer.ts:3:1", "shop/Customer.ts:3:1", "shop/Customer.ts:3:1",
        "shop/Purchase.ts:3:1"] ∧
      r.invalid = ["shop.a", "Shop.a", "shop.b"] := by
  intro graph r
  have haccount : r.AccountsFor graph Sample.found ["shop.b", "Shop.a", "shop.a"] :=
    accountsFor_record "tool" "1" "/p" "S" graph Sample.found _ true
  have hlisted : Sample.listed = r.diagnostics := by
    have hperm : Sample.listed.Perm Sample.found := by decide +kernel
    refine Diagnostic.eq_of_pairwise (hperm.trans haccount.diagnostics.symm) (by decide +kernel)
      haccount.diagnostics_sorted ?_
    simp only [haccount.diagnostics_stable]
    decide +kernel
  have hinvalid : ["shop.a", "Shop.a", "shop.b"] = r.invalid := by
    have hperm : ["shop.a", "Shop.a", "shop.b"].Perm ["shop.b", "Shop.a", "shop.a"] := by decide
    refine List.Perm.eq_of_pairwise (fun a b _ _ hab hba => ?_) (by decide +kernel)
      haccount.invalid_sorted (hperm.trans haccount.invalid.symm)
    exact Text.eq_of_collate_eq (Std.OrientedCmp.isLE_antisymm hab hba)
  exact ⟨haccount, by decide +kernel, by decide +kernel, by decide +kernel, hlisted.symm,
    by decide +kernel, hinvalid.symm⟩

end Report

end Metamodel
