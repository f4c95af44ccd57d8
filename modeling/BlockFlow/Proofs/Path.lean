import BlockFlow.Host

/-!
# The folder above a path

A path is cut at its slashes, and the path of the folder above it is put together again from what
is left. Both lead along the same names, apart from those that lead nowhere else
(`exists_parent?_eq`).
-/

set_option autoImplicit false

namespace BlockFlow

namespace Path

variable {path : String}

/-- No piece of a split list holds the separator. -/
theorem not_mem_of_mem_splitOn {α : Type} [BEq α] [LawfulBEq α] {a : α} {xs piece : List α}
    (h : piece ∈ xs.splitOn a) : a ∉ piece := by
  induction xs generalizing piece with
  | nil =>
    rw [List.splitOn_nil, List.mem_singleton] at h
    rw [h]
    exact List.not_mem_nil
  | cons x xs ih =>
    rw [List.splitOn_cons_eq_if_modifyHead] at h
    split at h
    · rcases List.mem_cons.1 h with rfl | h
      · exact List.not_mem_nil
      · exact ih h
    · next hne =>
      cases hpieces : xs.splitOn a with
      | nil => exact absurd hpieces (List.splitOn_ne_nil a xs)
      | cons first rest =>
        rw [hpieces] at h ih
        rcases List.mem_cons.1 h with rfl | h
        · have hfirst := ih List.mem_cons_self
          intro hmem
          rcases List.mem_cons.1 hmem with rfl | hmem
          · exact hne (beq_self_eq_true _)
          · exact hfirst hmem
        · exact ih (List.mem_cons_of_mem _ h)

theorem not_mem_of_mem_pieces {name : String} (h : name ∈ pieces path) : '/' ∉ name.toList := by
  obtain ⟨piece, hpiece, rfl⟩ := List.mem_map.1 h
  rw [String.toList_ofList]
  exact not_mem_of_mem_splitOn hpiece

theorem pieces_intercalate {xs : List String} (hne : xs ≠ []) (h : ∀ x ∈ xs, '/' ∉ x.toList) :
    pieces ("/".intercalate xs) = xs := by
  have hsplit : (("/".intercalate xs).toList).splitOn '/' = xs.map String.toList := by
    rw [String.toList_intercalate]
    refine List.splitOn_intercalate '/' ?_ ?_
    · simpa using h
    · simpa using hne
  rw [pieces, hsplit, List.map_map]
  simp

/-- A path that is written as that of a folder ends in an empty piece. -/
theorem pieces_of_namesFolder (h : namesFolder path = true) :
    ∃ init, pieces path = init ++ [""] := by
  have hlast : path.toList.getLast? = some '/' := eq_of_beq h
  obtain ⟨front, hfront⟩ := List.getLast?_eq_some_iff.1 hlast
  refine ⟨(front.splitOn '/').map String.ofList, ?_⟩
  rw [pieces, hfront, List.splitOn_append_cons_self, List.splitOn_nil, List.map_append]
  rfl

/-- A path from the root begins with an empty piece. -/
theorem pieces_of_isAbsolute (h : isAbsolute path = true) : ∃ rest, pieces path = "" :: rest := by
  have hfirst : path.toList.head? = some '/' := eq_of_beq h
  obtain ⟨rest, hrest⟩ := List.head?_eq_some_iff.1 hfirst
  refine ⟨(rest.splitOn '/').map String.ofList, ?_⟩
  rw [pieces, hrest, List.splitOn_cons_eq_if_modifyHead]
  rfl

/-- The piece is a name that leads away from where it is looked up. -/
def leadsAway (piece : String) : Bool := piece != "" && piece != "."

/-- The names that lead away from where they are looked up. -/
def moves (names : List String) : List String := names.filter (· ≠ ".")

/-- A path that is put together of names leads where the names lead. -/
theorem moves_names_join (absolute : Bool) {xs : List String}
    (h : ∀ x ∈ xs, '/' ∉ x.toList ∧ x ≠ "") :
    isAbsolute ((if absolute then "/" else "") ++ "/".intercalate xs) = absolute ∧
      moves (names ((if absolute then "/" else "") ++ "/".intercalate xs)) = moves xs := by
  cases xs with
  | nil => cases absolute <;> decide
  | cons x xs =>
    have hsame : (x :: xs).map (fun name => if name = "" then "." else name) = x :: xs :=
      (List.map_congr_left fun y hy => if_neg (h y hy).2).trans (List.map_id' _)
    have hslash : ∀ y ∈ x :: xs, '/' ∉ y.toList := fun y hy => (h y hy).1
    cases absolute with
    | true =>
      have hjoin : "/" ++ "/".intercalate (x :: xs) = "/".intercalate ("" :: x :: xs) := by
        rw [String.intercalate_cons_of_ne_nil (List.cons_ne_nil x xs), String.empty_append]
      have hpieces : pieces ("/" ++ "/".intercalate (x :: xs)) = "" :: x :: xs := by
        rw [hjoin]
        exact pieces_intercalate (List.cons_ne_nil _ _) (List.forall_mem_cons.2 ⟨by decide, hslash⟩)
      refine ⟨?_, ?_⟩
      · simp [isAbsolute]
      · rw [if_pos rfl, names, hpieces, List.map_cons, hsame]
        rfl
    | false =>
      have hpieces := pieces_intercalate (List.cons_ne_nil x xs) hslash
      rw [if_neg Bool.false_ne_true, String.empty_append]
      refine ⟨?_, ?_⟩
      · refine Bool.eq_false_iff.2 fun habsolute => ?_
        obtain ⟨rest, hrest⟩ := pieces_of_isAbsolute habsolute
        rw [hpieces] at hrest
        exact (h x List.mem_cons_self).2 (List.cons.inj hrest).1
      · rw [names, hpieces, hsame]

theorem moves_map_pieces (ps : List String) :
    moves (ps.map fun name => if name = "" then "." else name) =
      ps.filter leadsAway := by
  induction ps with
  | nil => rfl
  | cons p ps ih =>
    rw [List.map_cons, moves, List.filter_cons, List.filter_cons, ← moves, ih]
    by_cases hempty : p = "" <;> simp [leadsAway, hempty]

/-- The components of a path are its pieces that lead away, and perhaps a period before them. -/
theorem components_of_pieces {ps : List String} {piece : String} (h : pieces path = ps ++ [piece])
    (hempty : piece ≠ "") (hperiod : piece ≠ ".") :
    ∃ front, components path = front ++ [piece] ∧ (∀ x ∈ front, x ∈ ps ∧ x ≠ "") ∧
      moves front = ps.filter leadsAway := by
  cases ps with
  | nil => exact ⟨[], by simp [components, h, hempty], nofun, rfl⟩
  | cons first ps =>
    -- a period is kept as the first component and nowhere else
    refine ⟨[first].filter (· != "") ++ ps.filter leadsAway, ?_, ?_, ?_⟩
    · have hlast : leadsAway piece = true := by simp [leadsAway, hempty, hperiod]
      have hcomponents : components path =
          [first].filter (· != "") ++ (ps ++ [piece]).filter leadsAway := by
        rw [components, h]
        rfl
      rw [hcomponents, List.filter_append, List.filter_cons_of_pos hlast, List.filter_nil,
        List.append_assoc]
    · intro x hx
      rcases List.mem_append.1 hx with hx | hx
      · obtain ⟨hx, hne⟩ := List.mem_filter.1 hx
        exact ⟨List.mem_singleton.1 hx ▸ List.mem_cons_self, by simpa using hne⟩
      · obtain ⟨hx, hne⟩ := List.mem_filter.1 hx
        exact ⟨List.mem_cons_of_mem _ hx, by simp_all [leadsAway]⟩
    · have hrest : moves (ps.filter leadsAway) = ps.filter leadsAway :=
        List.filter_eq_self.2 fun x hx => by
          have hkept := (List.mem_filter.1 hx).2
          simp_all [leadsAway]
      rw [moves, List.filter_append, ← moves, ← moves, hrest]
      by_cases hfirst : first = "" <;> by_cases hperiod : first = "." <;>
        simp [moves, leadsAway, List.filter_cons, hfirst, hperiod]

/-- A path that ends in a name is in the folder to which the names before it lead. -/
theorem exists_parent?_eq {init : List String} {name : String} (h : names path = init ++ [name])
    (hname : name ≠ ".") :
    ∃ parent, parent? path = some parent ∧ isAbsolute parent = isAbsolute path ∧
      moves (names parent) = moves init := by
  -- the last name is the last piece, which is neither empty nor a period
  obtain ⟨ps, last, hpieces, rfl, hlast⟩ := List.map_eq_append_iff.1 h
  obtain ⟨piece, rest, rfl, rfl, hrest⟩ := List.map_eq_cons_iff.1 hlast
  obtain rfl := List.map_eq_nil_iff.1 hrest
  have hkept : piece ≠ "" ∧ piece ≠ "." := by
    by_cases hempty : piece = ""
    · rw [if_pos hempty] at hname
      exact absurd rfl hname
    · rw [if_neg hempty] at hname
      exact ⟨hempty, hname⟩
  obtain ⟨front, hcomponents, hfront, hmoves⟩ := components_of_pieces hpieces hkept.1 hkept.2
  have hparent : parent? path =
      some ((if isAbsolute path then "/" else "") ++ "/".intercalate front) := by
    rw [parent?, hcomponents]
    split
    · next hnil => exact absurd hnil (by simp)
    · rw [List.dropLast_concat]
  obtain ⟨habsolute, hleads⟩ := moves_names_join (isAbsolute path) fun x hx =>
    have hx := hfront x hx
    ⟨not_mem_of_mem_pieces (hpieces ▸ List.mem_append_left _ hx.1), hx.2⟩
  exact ⟨_, hparent, habsolute, hleads.trans (hmoves.trans (moves_map_pieces ps).symm)⟩

/-- A path that ends in a name is not written as that of a folder. -/
theorem namesFolder_eq_false {init : List String} {name : String}
    (h : names path = init ++ [name]) (hname : name ≠ ".") : namesFolder path = false := by
  refine Bool.eq_false_iff.2 fun hends => ?_
  obtain ⟨front, hpieces⟩ := pieces_of_namesFolder hends
  rw [names, hpieces, List.map_append] at h
  exact hname (List.cons.inj (List.append_inj_right' h rfl)).1.symm

end Path

end BlockFlow
