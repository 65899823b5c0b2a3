import Metamodel.Path
import Metamodel.Proofs.Text.Split

/-!
# Paths and their segments

A path is cut at its slashes and put together again (`segments_ofSegments`, `ofSegments_segments`).
The segments of joined paths are those of the one behind those of the other
(`segments_append_slash`). The directory of a path that ends in a name is what stands in front of
the name (`directory_concat`).
-/

namespace Metamodel.Path

theorem toList_ofSegments (segs : List String) :
    (ofSegments segs).toList = Text.join ['/'] (segs.map String.toList) := by
  rw [ofSegments, String.toList_intercalate, Text.intercalate_eq_join]
  rfl

theorem segments_ne_nil (p : String) : segments p ≠ [] := by
  rw [segments, Text.splitText, Ne, List.map_eq_nil_iff]
  exact Text.split_ne_nil _ _

theorem segments_ofSegments_flatMap {segs : List String} (h : segs ≠ []) :
    segments (ofSegments segs) = segs.flatMap segments := by
  rw [segments, Text.splitText, toList_ofSegments, Text.split_join_flatMap _ (by simpa using h),
    List.flatMap_map, List.map_flatMap]
  rfl

theorem notMem_slash {p s : String} (h : s ∈ segments p) : '/' ∉ s.toList := by
  obtain ⟨cs, hcs, rfl⟩ := List.mem_map.1 h
  rw [String.toList_ofList]
  exact Text.notMem_of_mem_split hcs

theorem subset_of_mem_segments {p s : String} (h : s ∈ segments p) : s.toList ⊆ p.toList := by
  obtain ⟨cs, hcs, rfl⟩ := List.mem_map.1 h
  rw [String.toList_ofList]
  exact Text.subset_of_mem_split hcs

theorem segments_of_notMem {s : String} (h : '/' ∉ s.toList) : segments s = [s] := by
  rw [segments, Text.splitText, Text.split_of_notMem h, List.map_singleton, String.ofList_toList]

/-- Cutting undoes putting together. -/
theorem segments_ofSegments {segs : List String} (hne : segs ≠ [])
    (h : ∀ s ∈ segs, '/' ∉ s.toList) : segments (ofSegments segs) = segs := by
  rw [segments_ofSegments_flatMap hne]
  have hsegs : segs.flatMap segments = segs.flatMap fun s => [s] :=
    List.flatMap_congr fun s hs => segments_of_notMem (h s hs)
  rw [hsegs, List.flatMap_singleton']

/-- Putting together undoes cutting. -/
theorem ofSegments_segments (p : String) : ofSegments (segments p) = p := by
  rw [← String.toList_inj, toList_ofSegments, segments, Text.map_toList_splitText,
    Text.join_split_self]

theorem segments_append_slash (a b : String) :
    segments (a ++ "/" ++ b) = segments a ++ segments b := by
  have hlist : (a ++ "/" ++ b).toList = a.toList ++ '/' :: b.toList := by
    simp [String.toList_append]
  rw [segments, Text.splitText, hlist, Text.split_append_sep, List.map_append]
  rfl

theorem segments_dot_slash (tail : String) : segments ("./" ++ tail) = "." :: segments tail := by
  have hdot : "./" = "." ++ "/" := by decide
  have hsegments : segments "." = ["."] := by decide
  rw [hdot, segments_append_slash, hsegments, List.singleton_append]

theorem segments_dots_slash (tail : String) : segments ("../" ++ tail) = ".." :: segments tail := by
  have hdots : "../" = ".." ++ "/" := by decide
  have hsegments : segments ".." = [".."] := by decide
  rw [hdots, segments_append_slash, hsegments, List.singleton_append]

theorem segments_append_of_notMem (p : String) {tail : String} (h : '/' ∉ tail.toList) :
    ∃ front last, segments p = front ++ [last] ∧ segments (p ++ tail) = front ++ [last ++ tail] := by
  obtain ⟨front, last, hsplit, happend⟩ := Text.split_append_of_notMem p.toList h
  refine ⟨front.map String.ofList, String.ofList last, ?_, ?_⟩
  · rw [segments, Text.splitText, hsplit, List.map_append, List.map_singleton]
  · rw [segments, Text.splitText, String.toList_append, happend, List.map_append,
      List.map_singleton, String.ofList_append, String.ofList_toList]

theorem ofSegments_cons_cons (s t : String) (segs : List String) :
    ofSegments (s :: t :: segs) = s ++ "/" ++ ofSegments (t :: segs) := by
  rw [← String.toList_inj, toList_ofSegments, List.map_cons, List.map_cons, Text.join_cons_cons,
    String.toList_append, String.toList_append, toList_ofSegments, List.map_cons]
  rfl

theorem ofSegments_concat {segs : List String} (hne : segs ≠ []) (s : String) :
    ofSegments (segs ++ [s]) = ofSegments segs ++ "/" ++ s := by
  induction segs with
  | nil => exact absurd rfl hne
  | cons t segs ih =>
    cases segs with
    | nil => rfl
    | cons t' segs =>
      rw [List.cons_append, List.cons_append, ofSegments_cons_cons, ← List.cons_append,
        ih (List.cons_ne_nil _ _), ofSegments_cons_cons]
      simp only [String.append_assoc]

theorem ofSegments_eq_empty_iff {segs : List String} (h : ∀ s ∈ segs, s ≠ "") :
    ofSegments segs = "" ↔ segs = [] := by
  constructor
  · intro hempty
    cases segs with
    | nil => rfl
    | cons s segs =>
      cases segs with
      | nil => exact absurd hempty (h s List.mem_cons_self)
      | cons t segs =>
        rw [ofSegments_cons_cons, String.append_eq_empty_iff, String.append_eq_empty_iff] at hempty
        exact absurd hempty.1.1 (h s List.mem_cons_self)
  · rintro rfl
    rfl

/-! ## Ends of a path -/

theorem head?_append {a : String} (h : a ≠ "") (b : String) :
    (a ++ b).toList.head? = a.toList.head? := by
  rw [String.toList_append, List.head?_append_of_ne_nil _ (mt String.toList_eq_nil_iff.1 h)]

theorem head?_ofSegments_cons {s : String} (h : s ≠ "") (segs : List String) :
    (ofSegments (s :: segs)).toList.head? = s.toList.head? := by
  cases segs with
  | nil => rfl
  | cons t segs => rw [ofSegments_cons_cons, String.append_assoc, head?_append h]

theorem isAbsolute_append {a : String} (h : a ≠ "") (b : String) :
    isAbsolute (a ++ b) = isAbsolute a := by
  rw [isAbsolute, head?_append h, isAbsolute]

theorem isAbsolute_ofSegments_cons {s : String} (h : s ≠ "") (segs : List String) :
    isAbsolute (ofSegments (s :: segs)) = isAbsolute s := by
  rw [isAbsolute, head?_ofSegments_cons h, isAbsolute]

theorem isAbsolute_of_notMem {s : String} (h : '/' ∉ s.toList) : isAbsolute s = false := by
  rw [isAbsolute, beq_eq_false_iff_ne]
  exact fun hhead => h (List.mem_of_mem_head? hhead)

/-- A path whose last segment is not empty has no slash at its end. -/
theorem getLast?_ne_slash {p last : String} (h : (segments p).getLast? = some last)
    (hlast : last ≠ "") : (p.toList.getLast? == some '/') = false := by
  rw [beq_eq_false_iff_ne]
  intro hslash
  obtain ⟨cs, hcs⟩ := List.getLast?_eq_some_iff.1 hslash
  rw [segments, Text.splitText, hcs, Text.split_append_sep, List.map_append, Text.split,
    List.map_singleton, List.getLast?_concat, Option.some.injEq] at h
  exact hlast h.symm

section Name

variable {name : List Char} (hne : name ≠ []) (hslash : '/' ∉ name) (front : List Char)
include hne hslash

/-- A text read from its end, from the first name on. -/
theorem dropWhile_reverse_name :
    ((front ++ name).reverse.dropWhile (· == '/')).dropWhile (· != '/') =
      front.reverse.dropWhile (· != '/') := by
  have hall : ∀ d ∈ name.reverse, (d != '/') = true := fun d hd =>
    bne_iff_ne.2 fun h => hslash (h ▸ List.mem_reverse.1 hd)
  have hkeep : (front ++ name).reverse.dropWhile (· == '/') = name.reverse ++ front.reverse := by
    rw [List.reverse_append]
    cases hrev : name.reverse with
    | nil => exact absurd (List.reverse_eq_nil_iff.1 hrev) hne
    | cons c cs =>
      have hc : (c == '/') = false := by
        have := hall c (hrev ▸ List.mem_cons_self)
        rw [bne_iff_ne] at this
        exact beq_eq_false_iff_ne.2 this
      rw [List.cons_append, List.dropWhile_cons, hc]
      rfl
  rw [hkeep]
  exact List.dropWhile_append_of_pos hall

end Name

/-- A name alone lies where paths start. -/
theorem directory_of_notMem {name : String} (hslash : '/' ∉ name.toList) :
    directory name = "." := by
  unfold directory
  cases hname : name.toList with
  | nil => rfl
  | cons c cs =>
    rw [hname, List.mem_cons, not_or] at hslash
    have hc : (c == '/') = false := beq_eq_false_iff_ne.2 (Ne.symm hslash.1)
    have hrest : (cs.reverse.dropWhile (· == '/')).dropWhile (· != '/') = [] := by
      by_cases hcs : cs = []
      · rw [hcs]
        rfl
      · simpa using dropWhile_reverse_name hcs hslash.2 []
    simp only [hrest, hc]
    rfl

/-- The directory of a path that ends in a name is what stands in front of the name. -/
theorem directory_concat {a name : String} (hname : name ≠ "") (hslash : '/' ∉ name.toList) :
    directory (a ++ "/" ++ name) = if a = "" then "/" else if a = "/" then "//" else a := by
  have hlist : (a ++ "/" ++ name).toList = a.toList ++ '/' :: name.toList := by
    simp [String.toList_append]
  have hne : name.toList ≠ [] := mt String.toList_eq_nil_iff.1 hname
  unfold directory
  rw [hlist]
  cases ha : a.toList with
  | nil =>
    have hrest := dropWhile_reverse_name hne hslash []
    rw [List.nil_append] at hrest
    rw [String.toList_eq_nil_iff.1 ha, if_pos rfl]
    simp only [List.nil_append, hrest]
    rfl
  | cons c cs =>
    have hrest : ((cs ++ '/' :: name.toList).reverse.dropWhile (· == '/')).dropWhile (· != '/') =
        '/' :: cs.reverse := by
      have hscan := dropWhile_reverse_name hne hslash (cs ++ ['/'])
      rw [List.append_assoc, List.singleton_append] at hscan
      rw [hscan, List.reverse_append]
      rfl
    have hofList : a = String.ofList (c :: cs) := by rw [← ha, String.ofList_toList]
    have hne' : a ≠ "" := by
      rintro rfl
      cases ha
    simp only [List.cons_append, hrest, List.isEmpty_reverse, List.reverse_reverse]
    rw [if_neg hne', ← hofList]
    have hroot : (c == '/' && cs.isEmpty) = true ↔ a = "/" := by
      rw [hofList, ← String.toList_inj, String.toList_ofList, Bool.and_eq_true, beq_iff_eq,
        List.isEmpty_iff]
      exact List.cons_eq_cons.symm
    simp only [hroot]

end Metamodel.Path
