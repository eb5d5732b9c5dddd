import Mathlib
import LegacyBasic.Destination

/-!
Paths as text.  A path is known by whether it starts at the root and by its elements after `.` and
`..` have been worked off; cleaning keeps both, so that cleaned paths with the same elements are the
same text.  Main statement: the output of a source that stays inside the directory it is named from
stays inside too, unless it is the directory above.
-/

namespace LegacyBasic

namespace Bytes

variable {separator : UInt8}

/-- A separator cuts a text in two, and each side is split by itself. -/
theorem splitOn_append (left right : Bytes) :
    splitOn separator (left ++ separator :: right) =
      splitOn separator left ++ splitOn separator right := by
  induction left with
  | nil => simp [splitOn]
  | cons b rest ih =>
    by_cases hseparator : b = separator
    · simp [splitOn, hseparator, ih]
    · obtain ⟨piece, pieces, hpieces⟩ :=
        List.exists_cons_of_ne_nil (splitOn_ne_nil separator rest)
      simp [splitOn, hseparator, ih, hpieces]

theorem splitOn_of_not_mem {text : Bytes} (habsent : separator ∉ text) :
    splitOn separator text = [text] := by
  induction text with
  | nil => rfl
  | cons b rest ih =>
    simp only [List.mem_cons, not_or] at habsent
    simp [splitOn, Ne.symm habsent.1, ih habsent.2]

theorem not_mem_of_mem_splitOn {text piece : Bytes} (hpiece : piece ∈ splitOn separator text) :
    separator ∉ piece := by
  induction text generalizing piece with
  | nil => simp_all [splitOn]
  | cons b rest ih =>
    by_cases hseparator : b = separator
    · simp only [splitOn, hseparator, if_true, List.mem_cons] at hpiece
      rcases hpiece with rfl | hpiece
      · simp
      · exact ih hpiece
    · obtain ⟨first, pieces, hpieces⟩ :=
        List.exists_cons_of_ne_nil (splitOn_ne_nil separator rest)
      simp only [splitOn, hseparator, if_false, hpieces, List.mem_cons] at hpiece
      rw [hpieces] at ih
      rcases hpiece with rfl | hpiece
      · have := ih (List.mem_cons_self ..)
        simp [Ne.symm hseparator, this]
      · exact ih (List.mem_cons_of_mem _ hpiece)

end Bytes

namespace Path

/-- What an element of a path looks like. -/
def IsElement (element : Bytes) : Prop := element ≠ [] ∧ separator ∉ element

theorem isElement_of_mem_elements {path element : Bytes} (helement : element ∈ elements path) :
    IsElement element := by
  obtain ⟨hpiece, hnonempty⟩ := List.mem_filter.1 helement
  exact ⟨by simpa using hnonempty, Bytes.not_mem_of_mem_splitOn hpiece⟩

@[simp] theorem elements_nil : elements [] = [] := rfl

theorem elements_append (left right : Bytes) :
    elements (left ++ separator :: right) = elements left ++ elements right := by
  simp [elements, Bytes.splitOn_append]

theorem elements_of_isElement {element : Bytes} (helement : IsElement element) :
    elements element = [element] := by
  have hnonempty : element.isEmpty = false := by simpa using helement.1
  simp [elements, Bytes.splitOn_of_not_mem helement.2, hnonempty]

theorem elements_ne_nil {b : UInt8} (hne : b ≠ separator) (rest : Bytes) :
    elements (b :: rest) ≠ [] := by
  obtain ⟨piece, pieces, hpieces⟩ :=
    List.exists_cons_of_ne_nil (Bytes.splitOn_ne_nil separator rest)
  simp [elements, Bytes.splitOn, hne, hpieces]

/-- Elements with separators between them are found again. -/
theorem elements_join {parts : List Bytes} (helements : ∀ part ∈ parts, IsElement part) :
    elements (Bytes.join "/" parts) = parts := by
  have hslash : Bytes.ofText "/" = [separator] := by decide
  induction parts with
  | nil => rfl
  | cons part rest ih =>
    have hfirst := elements_of_isElement (helements part (by simp))
    cases rest with
    | nil => simpa using hfirst
    | cons next rest =>
      have hothers := ih fun part hpart => helements part (by simp [hpart])
      have hjoined : Bytes.join "/" (part :: next :: rest) =
          part ++ separator :: Bytes.join "/" (next :: rest) := by
        simp [Bytes.join, hslash]
      rw [hjoined, elements_append, hfirst, hothers]
      rfl

/-! ### Working off dots -/

section Reduce

variable {rooted : Bool} {kept before : List Bytes} {element last : Bytes}

theorem reduceStep_dot : reduceStep rooted kept "." = kept := by
  simp [reduceStep]

theorem reduceStep_dots_nil :
    reduceStep rooted [] ".." = if rooted then [] else [Bytes.ofText ".."] := by
  have hne : Bytes.ofText ".." ≠ Bytes.ofText "." := by decide
  simp [reduceStep, hne]

theorem reduceStep_dots_cons :
    reduceStep rooted (last :: before) ".." =
      if last = ".." then Bytes.ofText ".." :: last :: before else before := by
  have hne : Bytes.ofText ".." ≠ Bytes.ofText "." := by decide
  simp [reduceStep, hne]

theorem reduceStep_name (hnotDot : element ≠ ".") (hnotDots : element ≠ "..") :
    reduceStep rooted kept element = element :: kept := by
  simp [reduceStep, hnotDot, hnotDots]

/-- Elements, the last one first, that working off dots leaves as they are. -/
inductive Settled (rooted : Bool) : List Bytes → Prop
  | nil : Settled rooted []
  | cons {last : Bytes} {before : List Bytes} (hsettled : Settled rooted before)
      (hstays : reduceStep rooted before last = last :: before) : Settled rooted (last :: before)

/-- What is kept stays settled with every element that is worked off. -/
theorem Settled.reduceStep (hsettled : Settled rooted kept) (element : Bytes) :
    Settled rooted (reduceStep rooted kept element) := by
  by_cases hdot : element = "."
  · rw [hdot, reduceStep_dot]
    exact hsettled
  by_cases hdots : element = ".."
  · subst hdots
    cases hsettled with
    | nil =>
      cases rooted with
      | true => exact .nil
      | false => exact .cons .nil reduceStep_dots_nil
    | @cons last before hsettled hstays =>
      by_cases hlast : last = ".."
      · have hpushed : Path.reduceStep rooted (last :: before) ".." =
            Bytes.ofText ".." :: last :: before := by
          rw [reduceStep_dots_cons, if_pos hlast]
        rw [hpushed]
        exact .cons (.cons hsettled hstays) hpushed
      · rw [reduceStep_dots_cons, if_neg hlast]
        exact hsettled
  · rw [reduceStep_name hdot hdots]
    exact .cons hsettled (reduceStep_name hdot hdots)

theorem Settled.foldl_reduceStep (hsettled : Settled rooted kept) (elements : List Bytes) :
    Settled rooted (elements.foldl (Path.reduceStep rooted) kept) := by
  induction elements generalizing kept with
  | nil => exact hsettled
  | cons element rest ih => exact ih (hsettled.reduceStep element)

/-- Settled elements are kept as they are when they are worked off again. -/
theorem Settled.foldl_reverse (hsettled : Settled rooted kept) :
    kept.reverse.foldl (Path.reduceStep rooted) [] = kept := by
  induction hsettled with
  | nil => rfl
  | cons hsettled hstays ih =>
    rw [List.reverse_cons, List.foldl_append, ih, List.foldl_cons, hstays]
    rfl

theorem settled_reduce (rooted : Bool) (elements : List Bytes) :
    Settled rooted (reduce rooted elements).reverse := by
  rw [reduce, List.reverse_reverse]
  exact Settled.nil.foldl_reduceStep elements

/-- Working off dots a second time changes nothing. -/
theorem reduce_reduce (rooted : Bool) (elements : List Bytes) :
    reduce rooted (reduce rooted elements) = reduce rooted elements := by
  have hfixed := (settled_reduce rooted elements).foldl_reverse
  rw [List.reverse_reverse] at hfixed
  rw [reduce, hfixed, List.reverse_reverse]

theorem mem_reduceStep {other : Bytes} (hkept : other ∈ reduceStep rooted kept element) :
    other ∈ kept ∨ other = element := by
  by_cases hdot : element = "."
  · rw [hdot, reduceStep_dot] at hkept
    exact .inl hkept
  by_cases hdots : element = ".."
  · subst hdots
    cases kept with
    | nil => cases rooted <;> simp_all [reduceStep_dots_nil]
    | cons last before =>
      rw [reduceStep_dots_cons] at hkept
      split at hkept
      · exact (List.mem_cons.1 hkept).symm
      · exact .inl (List.mem_cons_of_mem last hkept)
  · rw [reduceStep_name hdot hdots] at hkept
    exact (List.mem_cons.1 hkept).symm

theorem mem_foldl_reduceStep {elements : List Bytes} {other : Bytes}
    (hkept : other ∈ elements.foldl (reduceStep rooted) kept) :
    other ∈ kept ∨ other ∈ elements := by
  induction elements generalizing kept with
  | nil => exact .inl hkept
  | cons element rest ih =>
    rcases ih hkept with hkept | helement
    · rcases mem_reduceStep hkept with hkept | rfl
      · exact .inl hkept
      · exact .inr (List.mem_cons_self ..)
    · exact .inr (List.mem_cons_of_mem element helement)

/-- Working off dots adds no elements. -/
theorem mem_of_mem_reduce {elements : List Bytes} (hleft : element ∈ reduce rooted elements) :
    element ∈ elements := by
  rw [reduce, List.mem_reverse] at hleft
  exact (mem_foldl_reduceStep hleft).resolve_left (by simp)

/-- Where nothing is left to take back, two dots stay for good. -/
theorem dots_mem_foldl_reduceStep {elements : List Bytes} (hkept : Bytes.ofText ".." ∈ kept) :
    Bytes.ofText ".." ∈ elements.foldl (reduceStep rooted) kept := by
  induction elements generalizing kept with
  | nil => exact hkept
  | cons element rest ih =>
    apply ih
    by_cases hdot : element = "."
    · rw [hdot, reduceStep_dot]
      exact hkept
    by_cases hdots : element = ".."
    · subst hdots
      cases kept with
      | nil => cases hkept
      | cons last before =>
        rw [reduceStep_dots_cons]
        split
        · exact List.mem_cons_self ..
        · exact (List.mem_cons.1 hkept).resolve_left fun hlast => absurd hlast.symm ‹_›
    · rw [reduceStep_name hdot hdots]
      exact List.mem_cons_of_mem element hkept

end Reduce

/-! ### Cleaned paths -/

/-- The elements of a path after dots have been worked off. -/
def route (path : Bytes) : List Bytes := reduce (isRooted path) (elements path)

theorem isElement_of_mem_route {path element : Bytes} (hroute : element ∈ route path) :
    IsElement element :=
  isElement_of_mem_elements (mem_of_mem_reduce hroute)

theorem isRooted_append {left : Bytes} (hnonempty : left ≠ []) (right : Bytes) :
    isRooted (left ++ right) = isRooted left := by
  cases left with
  | nil => exact absurd rfl hnonempty
  | cons b rest => rfl

theorem isRooted_of_isElement {element : Bytes} (helement : IsElement element) :
    isRooted element = false := by
  cases element with
  | nil => exact absurd rfl helement.1
  | cons b rest =>
    have hne : b ≠ separator := by
      rintro rfl
      exact helement.2 (List.mem_cons_self ..)
    simp [isRooted, hne]

theorem isRooted_join {parts : List Bytes} (helements : ∀ part ∈ parts, IsElement part) :
    isRooted (Bytes.join "/" parts) = false := by
  cases parts with
  | nil => rfl
  | cons part rest =>
    have helement := helements part (by simp)
    cases rest with
    | nil => exact isRooted_of_isElement helement
    | cons next rest =>
      rw [Bytes.join, List.append_assoc, isRooted_append helement.1]
      exact isRooted_of_isElement helement

theorem isRooted_ofElements (rooted : Bool) {parts : List Bytes}
    (helements : ∀ part ∈ parts, IsElement part) :
    isRooted (ofElements rooted parts) = rooted := by
  cases rooted with
  | true => rfl
  | false =>
    by_cases hempty : parts = []
    · subst hempty
      rfl
    · simpa [ofElements, hempty] using isRooted_join helements

/-- A path that is put together from elements reduces as they do. -/
theorem reduce_elements_ofElements (rooted : Bool) {parts : List Bytes}
    (helements : ∀ part ∈ parts, IsElement part) :
    reduce rooted (elements (ofElements rooted parts)) = reduce rooted parts := by
  cases rooted with
  | true =>
    have hslash : Bytes.ofText "/" = [separator] := by decide
    have hwritten : ofElements true parts = [] ++ separator :: Bytes.join "/" parts :=
      congrArg (· ++ Bytes.join "/" parts) hslash
    rw [hwritten, elements_append, elements_nil, List.nil_append, elements_join helements]
  | false =>
    by_cases hempty : parts = []
    · subst hempty
      decide
    · simp [ofElements, hempty, elements_join helements]

theorem clean_eq (path : Bytes) : clean path = ofElements (isRooted path) (route path) := rfl

@[simp] theorem isRooted_clean (path : Bytes) : isRooted (clean path) = isRooted path :=
  isRooted_ofElements _ fun _ => isElement_of_mem_route

/-- Cleaning a path keeps where it leads. -/
@[simp] theorem route_clean (path : Bytes) : route (clean path) = route path := by
  rw [route, isRooted_clean, clean_eq,
    reduce_elements_ofElements _ fun _ => isElement_of_mem_route, route, reduce_reduce]

theorem clean_clean (path : Bytes) : clean (clean path) = clean path := by
  rw [clean_eq, isRooted_clean, route_clean, ← clean_eq]

theorem clean_ne_nil (path : Bytes) : clean path ≠ [] := by
  intro hempty
  have hunrooted : isRooted path = false := by
    rw [← isRooted_clean, hempty]
    rfl
  rw [clean_eq, hunrooted, ofElements, if_neg (by simp)] at hempty
  split at hempty
  · revert hempty
    decide
  · have hroute : elements (Bytes.join "/" (route path)) = route path :=
      elements_join fun _ => isElement_of_mem_route
    rw [hempty, elements_nil] at hroute
    simp_all

/-- A relative path that never leads above the place it starts from, as far as its text tells. -/
def StaysInside (path : Bytes) : Prop :=
  isRooted path = false ∧ Bytes.ofText ".." ∉ route path

instance (path : Bytes) : Decidable (StaysInside path) :=
  inferInstanceAs (Decidable (_ ∧ _))

theorem StaysInside.clean {path : Bytes} (hinside : StaysInside path) :
    StaysInside (clean path) := by
  rw [StaysInside, isRooted_clean, route_clean]
  exact hinside

/-- A path that stays inside does so on the way, up to each of its separators. -/
theorem StaysInside.of_append {left right : Bytes}
    (hinside : StaysInside (left ++ separator :: right)) : StaysInside (left ++ [separator]) := by
  obtain ⟨hunrooted, hnoDots⟩ := hinside
  have hnonempty : left ≠ [] := by
    rintro rfl
    simp [isRooted] at hunrooted
  rw [isRooted_append hnonempty] at hunrooted
  refine ⟨by rw [isRooted_append hnonempty, hunrooted], fun hroute => hnoDots ?_⟩
  simp only [route, isRooted_append hnonempty, hunrooted, elements_append, elements_nil,
    List.append_nil, reduce, List.mem_reverse, List.foldl_append] at hroute ⊢
  exact dots_mem_foldl_reduceStep hroute

theorem cut_after_last_separator (path : Bytes) :
    path = (path.reverse.dropWhile (· != separator)).reverse ++
      (path.reverse.takeWhile (· != separator)).reverse := by
  rw [← List.reverse_append, List.takeWhile_append_dropWhile, List.reverse_reverse]

/-- The path up to its last separator stays inside where the whole path does. -/
theorem StaysInside.directory {path : Bytes} (hinside : StaysInside path) :
    StaysInside (directory path) := by
  apply StaysInside.clean
  have hcut := cut_after_last_separator path
  rcases hleading : path.reverse.dropWhile (· != separator) with _ | ⟨b, rest⟩
  · exact ⟨rfl, by decide⟩
  · have hseparator : b = separator := by
      have := List.head?_dropWhile_not (· != separator) path.reverse
      simpa [hleading] using this
    subst hseparator
    rw [hleading, List.reverse_cons, List.append_assoc, List.singleton_append] at hcut
    rw [hcut] at hinside
    rw [List.reverse_cons]
    exact hinside.of_append

theorem StaysInside.separator_notMem_base {path : Bytes} (hinside : StaysInside path) :
    separator ∉ base path := by
  unfold base
  split
  · next element hlast =>
    exact (isElement_of_mem_elements (List.mem_of_getLast? hlast)).2
  · next hnone =>
    cases path with
    | nil => decide
    | cons b rest =>
      have hne : b ≠ separator := by simpa [isRooted] using hinside.1
      exact absurd (List.getLast?_eq_none_iff.1 hnone) (elements_ne_nil hne rest)

theorem separator_notMem_stem {name : Bytes} (habsent : separator ∉ name) :
    separator ∉ stem name := by
  unfold stem
  split
  · intro hmem
    have := List.mem_of_mem_drop (List.mem_reverse.1 hmem)
    exact habsent (List.mem_reverse.1 ((List.dropWhile_sublist _).mem this))
  · exact habsent

theorem join_of_ne_nil {directory : Bytes} (hnonempty : directory ≠ []) (name : Bytes) :
    join directory name = clean (directory ++ separator :: name) := by
  have hslash : Bytes.ofText "/" = [separator] := by decide
  simp [join, hnonempty, Bytes.concat, hslash]

/-- A name after a directory that stays inside leads at most to the directory above. -/
theorem StaysInside.append_name {directory name : Bytes} (hinside : StaysInside directory)
    (hnonempty : directory ≠ []) (habsent : separator ∉ name) :
    isRooted (directory ++ separator :: name) = false ∧
      (Bytes.ofText ".." ∉ route (directory ++ separator :: name) ∨
        route (directory ++ separator :: name) = [Bytes.ofText ".."]) := by
  obtain ⟨hunrooted, hnoDots⟩ := hinside
  have hrooted : isRooted (directory ++ separator :: name) = false := by
    rw [isRooted_append hnonempty, hunrooted]
  refine ⟨hrooted, ?_⟩
  simp only [route, hrooted, hunrooted, reduce, elements_append, List.foldl_append,
    List.mem_reverse] at hnoDots ⊢
  generalize (elements directory).foldl (reduceStep false) [] = kept at hnoDots ⊢
  by_cases hempty : name = []
  · subst hempty
    exact .inl hnoDots
  rw [elements_of_isElement ⟨hempty, habsent⟩, List.foldl_cons, List.foldl_nil]
  by_cases hdots : name = ".."
  · subst hdots
    cases kept with
    | nil => exact .inr rfl
    | cons last before =>
      simp only [List.mem_cons, not_or] at hnoDots
      rw [reduceStep_dots_cons, if_neg (Ne.symm hnoDots.1)]
      exact .inl hnoDots.2
  · refine .inl fun hkept => ?_
    rcases mem_reduceStep hkept with hkept | hname
    · exact hnoDots hkept
    · exact hdots hname.symm

end Path

namespace Destination

variable {source directory extension : Bytes}

/-- The output of a source stays inside where the source and the directory do, unless it is the
directory above. -/
theorem staysInside_or_eq_dots (hsource : Path.StaysInside source)
    (hdirectory : Path.StaysInside directory) (habsent : Path.separator ∉ extension) :
    Path.StaysInside (Path.clean (path source directory extension)) ∨
      Path.clean (path source directory extension) = ".." := by
  have hplaced : ∃ place, place ≠ [] ∧ Path.StaysInside place ∧ path source directory extension =
      Path.join place (Path.stem (Path.base source) ++ extension) := by
    by_cases hempty : directory = []
    · exact ⟨Path.directory source, Path.clean_ne_nil _, hsource.directory,
        by simp [path, hempty]⟩
    · exact ⟨directory, hempty, hdirectory, by simp [path, hempty]⟩
  obtain ⟨place, hnonempty, hinside, hpath⟩ := hplaced
  have hname : Path.separator ∉ Path.stem (Path.base source) ++ extension := by
    rw [List.mem_append, not_or]
    exact ⟨Path.separator_notMem_stem hsource.separator_notMem_base, habsent⟩
  rw [hpath, Path.join_of_ne_nil hnonempty, Path.clean_clean]
  obtain ⟨hunrooted, hnoDots | hdots⟩ := hinside.append_name hnonempty hname
  · exact .inl (Path.StaysInside.clean ⟨hunrooted, hnoDots⟩)
  · rw [Path.clean_eq, hunrooted, hdots]
    exact .inr rfl

/-- Outputs that have places have them apart from the sources and from each other. -/
theorem assign_eq_ok {inputs names destinations : List Bytes} {claimed : List (Bytes × Bytes)}
    (hassigned : assign directory extension inputs claimed names = .ok destinations) :
    destinations = names.map (fun name => Path.clean (path name directory extension)) ∧
    (∀ destination ∈ destinations, destination ∉ inputs ∧ claimed.lookup destination = none) ∧
    destinations.Nodup := by
  induction names generalizing claimed destinations with
  | nil =>
    cases hassigned
    simp
  | cons name rest ih =>
    simp only [assign] at hassigned
    split at hassigned
    · cases hassigned
    · next hnotInput =>
      split at hassigned
      · cases hassigned
      · next hunclaimed =>
        set place := Path.clean (path name directory extension) with hplace
        rcases hrest : assign directory extension inputs ((place, name) :: claimed) rest with
          conflict | others
        · rw [hrest] at hassigned
          cases hassigned
        · rw [hrest] at hassigned
          cases hassigned
          obtain ⟨hothers, hapart, hnodup⟩ := ih hrest
          have hlater : ∀ destination ∈ others, destination ≠ place ∧ destination ∉ inputs ∧
              claimed.lookup destination = none := by
            intro destination hother
            obtain ⟨hnotIn, hfree⟩ := hapart destination hother
            by_cases hsame : destination = place
            · simp [List.lookup, hsame] at hfree
            · have hdiffers : (destination == place) = false := by simpa using hsame
              rw [List.lookup, hdiffers] at hfree
              exact ⟨hsame, hnotIn, hfree⟩
          refine ⟨by rw [hothers, List.map_cons], fun destination hdestination => ?_, ?_⟩
          · rcases List.mem_cons.1 hdestination with rfl | hother
            · exact ⟨by simpa using hnotInput, hunclaimed⟩
            · exact (hlater destination hother).2
          · exact List.nodup_cons.2 ⟨fun hother => (hlater _ hother).1 rfl, hnodup⟩

end Destination

end LegacyBasic
