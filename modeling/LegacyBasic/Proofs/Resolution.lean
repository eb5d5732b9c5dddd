import Mathlib
import LegacyBasic.Proofs.Paths

/-!
Paths resolved against a working directory.  A path that starts at the root is its own place; any
other is followed from the working directory, where it first leads up and then down.  Main
statement: outputs that are given places fall together, or with a source, only where two paths are
spelled in different ways: one from the root and one from the working directory, or two that lead up
by different numbers of directories.
-/

namespace LegacyBasic

namespace Path

/-- The place of a path, as far as its text and that of the working directory tell. -/
def resolve (working path : Bytes) : Bytes :=
  if isRooted path then clean path else join working path

/-- By how many directories a path leads up before it leads down. -/
def climb (path : Bytes) : Nat := (route path).count (Bytes.ofText "..")

/-- Both paths start at the root, or both at the working directory; and both lead up as far. -/
def SpelledAlike (path other : Bytes) : Prop :=
  isRooted path = isRooted other ∧ climb path = climb other

instance (path other : Bytes) : Decidable (SpelledAlike path other) :=
  inferInstanceAs (Decidable (_ ∧ _))

/-! ### Leading up -/

/-- At the root no two dots are left. -/
theorem Settled.dots_notMem {kept : List Bytes} (hsettled : Settled true kept) :
    Bytes.ofText ".." ∉ kept := by
  induction hsettled with
  | nil => exact List.not_mem_nil
  | @cons last before hsettled hstays ih =>
    intro hkept
    rcases List.mem_cons.1 hkept with hlast | hbefore
    · rw [← hlast] at hstays
      cases before with
      | nil => simp [reduceStep_dots_nil] at hstays
      | cons next rest =>
        have hnotDots : next ≠ ".." := by
          rintro rfl
          exact ih List.mem_cons_self
        rw [reduceStep_dots_cons, if_neg hnotDots] at hstays
        have hshorter := congrArg List.length hstays
        simp only [List.length_cons] at hshorter
        omega
    · exact ih hbefore

theorem dots_notMem_route {path : Bytes} (hrooted : isRooted path = true) :
    Bytes.ofText ".." ∉ route path := by
  have hsettled := settled_reduce (isRooted path) (elements path)
  rw [hrooted] at hsettled
  have hnotMem := hsettled.dots_notMem
  rw [List.mem_reverse] at hnotMem
  rwa [route, hrooted]

/-- What is kept of a path by itself, beside what is kept when it is followed from the directories
`start`, the last element first.  The names are the same, and where the path by itself keeps two
dots, a directory of `start` is taken back. -/
def Follows (start loose kept : List Bytes) : Prop :=
  ∃ names count, Bytes.ofText ".." ∉ names ∧
    loose = names ++ List.replicate count (Bytes.ofText "..") ∧ kept = names ++ start.drop count

theorem follows_nil (start : List Bytes) : Follows start [] start :=
  ⟨[], 0, List.not_mem_nil, rfl, rfl⟩

/-- One more element. -/
theorem Follows.reduceStep {start loose kept : List Bytes} (hnoDots : Bytes.ofText ".." ∉ start)
    (hfollows : Follows start loose kept) (element : Bytes) :
    Follows start (reduceStep false loose element) (reduceStep true kept element) := by
  obtain ⟨names, count, habsent, rfl, rfl⟩ := hfollows
  by_cases hdot : element = "."
  · rw [hdot, reduceStep_dot, reduceStep_dot]
    exact ⟨names, count, habsent, rfl, rfl⟩
  by_cases hdots : element = ".."
  · subst hdots
    cases names with
    | cons last names =>
      simp only [List.mem_cons, not_or] at habsent
      have hnotDots : last ≠ ".." := Ne.symm habsent.1
      rw [List.cons_append, List.cons_append, reduceStep_dots_cons, reduceStep_dots_cons,
        if_neg hnotDots, if_neg hnotDots]
      exact ⟨names, count, habsent.2, rfl, rfl⟩
    | nil =>
      -- No name is left to take back: the path leads up once more.
      refine ⟨[], count + 1, List.not_mem_nil, ?_, ?_⟩
      · cases count with
        | zero => rfl
        | succ count =>
          rw [List.nil_append, List.replicate_succ, reduceStep_dots_cons, if_pos rfl]
          rfl
      · rw [List.nil_append, List.nil_append, ← List.drop_drop]
        rcases hleft : start.drop count with _ | ⟨last, before⟩
        · rfl
        · have hnotDots : last ≠ ".." := by
            rintro rfl
            exact hnoDots (List.mem_of_mem_drop (hleft ▸ List.mem_cons_self))
          rw [reduceStep_dots_cons, if_neg hnotDots]
          rfl
  · rw [reduceStep_name hdot hdots, reduceStep_name hdot hdots]
    refine ⟨element :: names, count, ?_, rfl, rfl⟩
    rw [List.mem_cons, not_or]
    exact ⟨Ne.symm hdots, habsent⟩

/-- All elements of a path, one after the other. -/
theorem Follows.foldl_reduceStep {start loose kept : List Bytes}
    (hnoDots : Bytes.ofText ".." ∉ start) (hfollows : Follows start loose kept)
    (elements : List Bytes) :
    Follows start (elements.foldl (Path.reduceStep false) loose)
      (elements.foldl (Path.reduceStep true) kept) := by
  induction elements generalizing loose kept with
  | nil => exact hfollows
  | cons element rest ih => exact ih (hfollows.reduceStep hnoDots element)

/-! ### Places -/

section Resolve

variable {working path other : Bytes} (habsolute : isRooted working = true)

include habsolute

theorem resolve_of_not_isRooted (hunrooted : isRooted path = false) :
    resolve working path = clean (working ++ separator :: path) := by
  have hnonempty : working ≠ [] := by
    rintro rfl
    cases habsolute
  rw [resolve, hunrooted, if_neg Bool.false_ne_true, join_of_ne_nil hnonempty]

/-- A relative path leads up from the working directory as often as it climbs, and then down along
its names. -/
theorem exists_route_resolve (hunrooted : isRooted path = false) :
    ∃ names, route path = List.replicate (climb path) (Bytes.ofText "..") ++ names ∧
      route (resolve working path) =
        (route working).take ((route working).length - climb path) ++ names := by
  have hnonempty : working ≠ [] := by
    rintro rfl
    cases habsolute
  have hstart : (elements working).foldl (reduceStep true) [] = (route working).reverse := by
    rw [route, habsolute, reduce, List.reverse_reverse]
  have hnoDots : Bytes.ofText ".." ∉ (route working).reverse := by
    rw [List.mem_reverse]
    exact dots_notMem_route habsolute
  obtain ⟨names, count, habsent, hloose, hkept⟩ :=
    (follows_nil (route working).reverse).foldl_reduceStep hnoDots (elements path)
  have hroute : route path = List.replicate count (Bytes.ofText "..") ++ names.reverse := by
    rw [route, hunrooted, reduce, hloose, List.reverse_append, List.reverse_replicate]
  have hclimb : climb path = count := by
    rw [climb, hroute, List.count_append, List.count_replicate_self,
      List.count_eq_zero_of_not_mem (by rwa [List.mem_reverse]), Nat.add_zero]
  refine ⟨names.reverse, by rw [hclimb, hroute], ?_⟩
  rw [resolve_of_not_isRooted habsolute hunrooted, route_clean, route, isRooted_append hnonempty,
    habsolute, elements_append, reduce, List.foldl_append, hstart, hkept, hclimb,
    List.reverse_append, List.drop_reverse, List.reverse_reverse]

/-- Paths that are spelled alike have the same place only if they are cleaned to the same text. -/
theorem SpelledAlike.clean_eq (halike : SpelledAlike path other)
    (hsame : resolve working path = resolve working other) : clean path = clean other := by
  obtain ⟨hstart, hclimb⟩ := halike
  cases hrooted : isRooted other with
  | true =>
    rw [hrooted] at hstart
    rwa [resolve, resolve, if_pos hstart, if_pos hrooted] at hsame
  | false =>
    rw [hrooted] at hstart
    obtain ⟨names, hroute, hresolved⟩ := exists_route_resolve habsolute hstart
    obtain ⟨others, hotherRoute, hotherResolved⟩ := exists_route_resolve habsolute hrooted
    have hnames : names = others := by
      rw [hsame, hotherResolved, hclimb] at hresolved
      exact (List.append_cancel_left hresolved).symm
    rw [Path.clean_eq, Path.clean_eq, hstart, hrooted, hroute, hotherRoute, hclimb,
      hnames]

end Resolve

theorem climb_of_isRooted {path : Bytes} (hrooted : isRooted path = true) : climb path = 0 :=
  List.count_eq_zero_of_not_mem (dots_notMem_route hrooted)

theorem spelledAlike_of_isRooted {path other : Bytes} (hrooted : isRooted path = true)
    (hother : isRooted other = true) : SpelledAlike path other :=
  ⟨hrooted.trans hother.symm,
    (climb_of_isRooted hrooted).trans (climb_of_isRooted hother).symm⟩

theorem StaysInside.spelledAlike {path other : Bytes} (hinside : StaysInside path)
    (hotherInside : StaysInside other) : SpelledAlike path other := by
  obtain ⟨hunrooted, hnoDots⟩ := hinside
  obtain ⟨hotherUnrooted, hotherNoDots⟩ := hotherInside
  refine ⟨hunrooted.trans hotherUnrooted.symm, ?_⟩
  rw [climb, climb, List.count_eq_zero_of_not_mem hnoDots,
    List.count_eq_zero_of_not_mem hotherNoDots]

theorem isRooted_directory {path : Bytes} (hrooted : isRooted path = true) :
    isRooted (directory path) = true := by
  have hcut := cut_after_last_separator path
  rw [directory, isRooted_clean]
  by_cases hempty : (path.reverse.dropWhile (· != separator)).reverse = []
  · -- Then no separator stands in the path, not even the one it starts with.
    rw [hempty, List.nil_append] at hcut
    have hleading : separator ∈ path := by
      cases path with
      | nil => cases hrooted
      | cons b rest =>
        obtain rfl : b = separator := by simpa [isRooted] using hrooted
        exact List.mem_cons_self
    rw [hcut, List.mem_reverse] at hleading
    have hnotSeparator := List.all_eq_true.1 List.all_takeWhile separator hleading
    simp at hnotSeparator
  · rwa [hcut, isRooted_append hempty] at hrooted

end Path

namespace Destination

variable {directory extension : Bytes}

theorem isRooted_path {source : Bytes} (hrooted : Path.isRooted source = true)
    (hdirectory : directory = [] ∨ Path.isRooted directory = true) :
    Path.isRooted (path source directory extension) = true := by
  have hjoined : ∀ {place : Bytes}, Path.isRooted place = true → ∀ name,
      Path.isRooted (Path.join place name) = true := by
    intro place hplaceRooted name
    have hnonempty : place ≠ [] := by
      rintro rfl
      cases hplaceRooted
    rw [Path.join_of_ne_nil hnonempty, Path.isRooted_clean, Path.isRooted_append hnonempty,
      hplaceRooted]
  rw [path]
  apply hjoined
  rcases hdirectory with rfl | hplaceRooted
  · exact Path.isRooted_directory hrooted
  · have hnonempty : directory ≠ [] := by
      rintro rfl
      cases hplaceRooted
    simpa [hnonempty] using hplaceRooted

/-- From a working directory, no output has the place of another output or of a source. -/
def KeptApart (working : Bytes) (names destinations : List Bytes) : Prop :=
  (destinations.Pairwise fun left right =>
    Path.resolve working left ≠ Path.resolve working right) ∧
  ∀ destination ∈ destinations, ∀ name ∈ names,
    Path.resolve working destination ≠ Path.resolve working name

instance (working : Bytes) (names destinations : List Bytes) :
    Decidable (KeptApart working names destinations) :=
  inferInstanceAs (Decidable (_ ∧ _))

/-- Among paths that are spelled alike, no output has the place of another output or of a source. -/
theorem resolve_ne_of_spelledAlike {working : Bytes} {names destinations : List Bytes}
    (habsolute : Path.isRooted working = true)
    (hplaced : all names directory extension = .ok destinations) :
    (destinations.Pairwise fun left right => Path.SpelledAlike left right →
      Path.resolve working left ≠ Path.resolve working right) ∧
    ∀ destination ∈ destinations, ∀ name ∈ names, Path.SpelledAlike destination name →
      Path.resolve working destination ≠ Path.resolve working name := by
  obtain ⟨hdestinations, hapart, hnodup⟩ := assign_eq_ok hplaced
  have hcleaned : ∀ destination ∈ destinations, Path.clean destination = destination := by
    intro destination hdestination
    rw [hdestinations] at hdestination
    obtain ⟨name, _, rfl⟩ := List.mem_map.1 hdestination
    exact Path.clean_clean _
  constructor
  · apply hnodup.imp_of_mem
    intro left right hleft hright hne halike hsame
    apply hne
    rw [← hcleaned left hleft, ← hcleaned right hright]
    exact halike.clean_eq habsolute hsame
  · intro destination hdestination name hname halike hsame
    apply (hapart destination hdestination).1
    rw [← hcleaned destination hdestination, halike.clean_eq habsolute hsame]
    exact List.mem_map_of_mem hname

theorem keptApart_of_spelledAlike {working : Bytes} {names destinations : List Bytes}
    (habsolute : Path.isRooted working = true)
    (hplaced : all names directory extension = .ok destinations)
    (halike : ∀ destination ∈ destinations, ∀ other ∈ destinations ++ names,
      Path.SpelledAlike destination other) : KeptApart working names destinations := by
  obtain ⟨houtputsApart, hsourcesApart⟩ := resolve_ne_of_spelledAlike habsolute hplaced
  constructor
  · apply houtputsApart.imp_of_mem
    intro left right hleft hright hapart
    exact hapart (halike left hleft right (List.mem_append_left names hright))
  · intro destination hdestination name hname
    apply hsourcesApart destination hdestination name hname
    exact halike destination hdestination name (List.mem_append_right destinations hname)

/-- Outputs that are given places are kept apart from each other and from the sources exactly where
this holds of the paths that are spelled in different ways.  So they are where every path starts at
the root, and where every path stays inside the working directory. -/
theorem keptApart_iff_of_all {working : Bytes} {names destinations : List Bytes}
    (habsolute : Path.isRooted working = true)
    (hplaced : all names directory extension = .ok destinations) :
    (KeptApart working names destinations ↔
      (destinations.Pairwise fun left right => ¬Path.SpelledAlike left right →
        Path.resolve working left ≠ Path.resolve working right) ∧
      ∀ destination ∈ destinations, ∀ name ∈ names, ¬Path.SpelledAlike destination name →
        Path.resolve working destination ≠ Path.resolve working name) ∧
    ((∀ name ∈ names, Path.isRooted name = true) →
      directory = [] ∨ Path.isRooted directory = true → KeptApart working names destinations) ∧
    ((∀ name ∈ names, Path.StaysInside name) → Path.StaysInside directory →
      Path.separator ∉ extension → Bytes.ofText ".." ∉ destinations →
      KeptApart working names destinations) := by
  obtain ⟨hdestinations, _, _⟩ := assign_eq_ok hplaced
  have hofName : ∀ destination ∈ destinations, ∃ name ∈ names,
      Path.clean (path name directory extension) = destination := by
    intro destination hdestination
    rw [hdestinations] at hdestination
    exact List.mem_map.1 hdestination
  refine ⟨⟨?_, ?_⟩, ?_, ?_⟩
  · rintro ⟨houtputs, hsources⟩
    constructor
    · apply houtputs.imp
      intro left right hne _
      exact hne
    · intro destination hdestination name hname _
      exact hsources destination hdestination name hname
  · rintro ⟨houtputs, hsources⟩
    obtain ⟨houtputsApart, hsourcesApart⟩ := resolve_ne_of_spelledAlike habsolute hplaced
    constructor
    · apply houtputsApart.imp₂ _ houtputs
      intro left right halikeApart hunlikeApart
      exact (em (Path.SpelledAlike left right)).elim halikeApart hunlikeApart
    · intro destination hdestination name hname
      exact (em (Path.SpelledAlike destination name)).elim
        (hsourcesApart destination hdestination name hname)
        (hsources destination hdestination name hname)
  · intro hnames hdirectory
    have hrooted : ∀ destination ∈ destinations, Path.isRooted destination = true := by
      intro destination hdestination
      obtain ⟨name, hname, rfl⟩ := hofName destination hdestination
      rw [Path.isRooted_clean]
      exact isRooted_path (hnames name hname) hdirectory
    apply keptApart_of_spelledAlike habsolute hplaced
    intro destination hdestination other hother
    apply Path.spelledAlike_of_isRooted (hrooted destination hdestination)
    exact (List.mem_append.1 hother).elim (hrooted other) (hnames other)
  · intro hnames hdirectory habsent hnoDots
    have hinside : ∀ destination ∈ destinations, Path.StaysInside destination := by
      intro destination hdestination
      obtain ⟨name, hname, rfl⟩ := hofName destination hdestination
      apply (staysInside_or_eq_dots (hnames name hname) hdirectory habsent).resolve_right
      intro hdots
      exact hnoDots (hdots ▸ hdestination)
    apply keptApart_of_spelledAlike habsolute hplaced
    intro destination hdestination other hother
    apply (hinside destination hdestination).spelledAlike
    exact (List.mem_append.1 hother).elim (hinside other) (hnames other)

/-- From `/w`, the outputs of `a.bas`, `../b.bas` and `/c/d.bas` are spelled in three ways and are
kept apart; so are those of two absolute paths that go into `/w`. -/
theorem keptApart_iff_of_all_three_spellings :
    let names : List Bytes := ["./a.bas", "../b.bas", "/c/x/../d.bas"]
    let absoluteNames : List Bytes := ["/w/a.bas", "/c/b.bas"]
    all names [] ".out" = .ok ["a.out", "../b.out", "/c/d.out"] ∧
      KeptApart "/w" names ["a.out", "../b.out", "/c/d.out"] ∧
      all absoluteNames "/w" ".out" = .ok ["/w/a.out", "/w/b.out"] ∧
      KeptApart "/w" absoluteNames ["/w/a.out", "/w/b.out"] := by
  intro names absoluteNames
  have hplaced : all names [] ".out" = .ok ["a.out", "../b.out", "/c/d.out"] := by decide +kernel
  have habsolutePlaced : all absoluteNames "/w" ".out" = .ok ["/w/a.out", "/w/b.out"] := by
    decide +kernel
  have habsolute : Path.isRooted "/w" = true := by decide +kernel
  obtain ⟨hexactly, _, _⟩ := keptApart_iff_of_all habsolute hplaced
  obtain ⟨_, hfromRoot, _⟩ := keptApart_iff_of_all habsolute habsolutePlaced
  exact ⟨hplaced, hexactly.2 (by decide +kernel), habsolutePlaced,
    hfromRoot (by decide +kernel) (.inr habsolute)⟩

/-- A path that climbs to the root is not seen to be the same as one that starts there.  The output
of such a source that goes into `/` under the same extension is the source itself, and beside such a
source an output is that of another source in `/`. -/
theorem not_keptApart_of_two_spellings :
    let above : Bytes := (List.replicate 12 (Bytes.ofText "../")).flatten
    all [above ++ "a.bas"] "/" ".bas" = .ok ["/a.bas"] ∧
      Path.resolve "/w" "/a.bas" = Path.resolve "/w" (above ++ "a.bas") ∧
      ¬KeptApart "/w" [above ++ "a.bas"] ["/a.bas"] ∧
      all ["/a.cls", above ++ "a.frm"] [] ".bas" = .ok ["/a.bas", above ++ "a.bas"] ∧
      ¬KeptApart "/w" ["/a.cls", above ++ "a.frm"] ["/a.bas", above ++ "a.bas"] := by
  decide +kernel

end Destination

end LegacyBasic
